import Maiden.Models.Preferences

/-!
# One row per key

Settings, notifications and tags should have one row per key: the user and the name of the
setting, the user and the device, and all columns of a tag. No column is declared unique; it
is the code that looks before it inserts. As long as calls follow each other that is enough for
keys that the columns keep as they are (`oneRow_sequential`; a key that is cut is never found
again, `two_rows_for_cut_name`). But the look and the insert are two transactions
(`exec_methods`), and two calls with the same new key that both look before either inserts leave
two rows (`two_rows_for_one_key`).

`oneRowPerKey_iff` says that nothing else goes wrong, in any interleaving of any number of
calls, because the updates never touch a key.
-/

namespace Maiden

open CheckThenAct

/-- Undisturbed, each of the three methods is the run of its own transactions: the one that looks,
and the one that writes if there is anything to write. -/
theorem exec_methods (settings : Table Setting) (notifications : Table Notification)
    (taggables : Table Taggable) (s : CreateSetting) (n : CreateNotification) (t : CreateTaggable)
    (now : Int) :
    Run.exec Setting.protocol.step ⟨settings, []⟩
        (.read s :: (Setting.protocol.check s settings).toList.map fun _ => .commit 0 now) =
      some ⟨(Setting.createOrUpdate settings s now).1, []⟩ ∧
    Run.exec Notification.protocol.step ⟨notifications, []⟩
        (.read n :: (Notification.protocol.check n notifications).toList.map fun _ =>
          .commit 0 now) =
      some ⟨(Notification.create notifications n now).1, []⟩ ∧
    Run.exec Taggable.protocol.step ⟨taggables, []⟩
        (.read t :: (Taggable.protocol.check t taggables).toList.map fun _ => .commit 0 now) =
      some ⟨(Taggable.create taggables t now).1, []⟩ := by
  rw [Setting.createOrUpdate_eq, Notification.create_eq, Taggable.create_eq]
  exact ⟨exec_call s, exec_call n, exec_call t⟩

/-- Calls that follow each other keep one row per key, as long as the columns keep the texts of the
keys as they are: a key that is cut off is not found again under the text it was given with. -/
theorem oneRow_sequential {settings : Table Setting} {notifications : Table Notification}
    {taggables : Table Taggable} (hs : (settings.rows.map Setting.protocol.column).Nodup)
    (hn : (notifications.rows.map Notification.protocol.column).Nodup)
    (ht : (taggables.rows.map Taggable.protocol.column).Nodup)
    {ss : List (CreateSetting × Int)} {ns : List (CreateNotification × Int)}
    {ts : List (CreateTaggable × Int)} (hss : ∀ c ∈ ss, Varchar.fits 128 c.1.name = true)
    (hns : ∀ c ∈ ns, Varchar.fits 255 c.1.deviceType = true)
    (hts : ∀ c ∈ ts, Varchar.fits 50 c.1.model = true ∧ Varchar.fits 128 c.1.action = true ∧
      Varchar.fits 2048 c.1.extra = true) :
    ((ss.foldl (fun db c => (Setting.createOrUpdate db c.1 c.2).1) settings).rows.map
      Setting.protocol.column).Nodup ∧
    ((ns.foldl (fun db c => (Notification.create db c.1 c.2).1) notifications).rows.map
      Notification.protocol.column).Nodup ∧
    ((ts.foldl (fun db c => (Taggable.create db c.1 c.2).1) taggables).rows.map
      Taggable.protocol.column).Nodup := by
  simp only [Setting.createOrUpdate_eq, Notification.create_eq, Taggable.create_eq]
  refine ⟨nodup_calls (fun c hc => Setting.looks (hss c hc)) hs,
    nodup_calls (fun c hc => Notification.looks (hns c hc)) hn, nodup_calls (fun c hc => ?_) ht⟩
  obtain ⟨hmodel, haction, hextra⟩ := hts c hc
  exact Taggable.looks hmodel haction hextra

/-- A name of 128 letters and a blank. -/
def cutName : JString := List.replicate 128 (jc 'a') ++ [jc ' ']

/-- The column cuts the blank, the look is for the whole name: set twice, one call after the
other, the setting has two rows. -/
theorem two_rows_for_cut_name :
    (Setting.createOrUpdate (Setting.createOrUpdate Table.empty ⟨7, cutName, [], 1⟩ 2).1
        ⟨7, cutName, [], 3⟩ 4).1.rows.map Setting.protocol.column =
      [(7, List.replicate 128 (jc 'a')), (7, List.replicate 128 (jc 'a'))] := by
  decide

/-- **When the tables have one row per key.** For every interleaving of the transactions of
any number of calls, each table has one row per key throughout exactly when every insert
finds its key still absent. -/
theorem oneRowPerKey_iff (settings : Table Setting) (notifications : Table Notification)
    (taggables : Table Taggable) (hs : (settings.rows.map Setting.protocol.column).Nodup)
    (hn : (notifications.rows.map Notification.protocol.column).Nodup)
    (ht : (taggables.rows.map Taggable.protocol.column).Nodup)
    (ss : List (Access CreateSetting)) (ns : List (Access CreateNotification))
    (ts : List (Access CreateTaggable)) :
    (Run.Throughout Setting.protocol.step Setting.protocol.OneRow ⟨settings, []⟩ ss ↔
      Run.Meets Setting.protocol.step Setting.protocol.StillAbsent ⟨settings, []⟩ ss) ∧
    (Run.Throughout Notification.protocol.step Notification.protocol.OneRow
        ⟨notifications, []⟩ ns ↔
      Run.Meets Notification.protocol.step Notification.protocol.StillAbsent
        ⟨notifications, []⟩ ns) ∧
    (Run.Throughout Taggable.protocol.step Taggable.protocol.OneRow ⟨taggables, []⟩ ts ↔
      Run.Meets Taggable.protocol.step Taggable.protocol.StillAbsent ⟨taggables, []⟩ ts) :=
  ⟨oneRow_iff Setting.protocol hs ss, oneRow_iff Notification.protocol hn ns,
    oneRow_iff Taggable.protocol ht ts⟩

/-- User 7 sets a language. -/
def setLanguage (value : JString) : CreateSetting := ⟨7, js ['l', 'a', 'n', 'g'], value, 1⟩

/-- User 7 registers a phone. -/
def registerPhone (token : JString) : CreateNotification :=
  ⟨7, token, js ['i', 'o', 's'], js ['u', '1'], 1⟩

/-- User 7 likes a route. -/
def likeRoute (route : Int) : CreateTaggable :=
  { model := js ['R', 'o', 'u', 't', 'e'], modelId := route, actorId := 7
    action := js ['l', 'i', 'k', 'e'], made := 1 }

/-- Two calls, one after the other. -/
def oneByOne {Req : Type} (r r' : Req) : List (Access Req) :=
  [.read r, .commit 0 2, .read r', .commit 0 3]

/-- Two calls that both look before either writes. -/
def bothLookFirst {Req : Type} (r r' : Req) : List (Access Req) :=
  [.read r, .read r', .commit 0 2, .commit 0 3]

theorem oneRowPerKey_oneByOne :
    Run.Throughout Setting.protocol.step Setting.protocol.OneRow ⟨Table.empty, []⟩
        (oneByOne (setLanguage (js ['e', 'n'])) (setLanguage (js ['d', 'e']))) ∧
      Run.Throughout Notification.protocol.step Notification.protocol.OneRow ⟨Table.empty, []⟩
        (oneByOne (registerPhone (js ['a'])) (registerPhone (js ['b']))) ∧
      Run.Throughout Taggable.protocol.step Taggable.protocol.OneRow ⟨Table.empty, []⟩
        (bothLookFirst (likeRoute 1) (likeRoute 2)) := by
  have hall := oneRowPerKey_iff Table.empty Table.empty Table.empty List.nodup_nil
    List.nodup_nil List.nodup_nil
    (oneByOne (setLanguage (js ['e', 'n'])) (setLanguage (js ['d', 'e'])))
    (oneByOne (registerPhone (js ['a'])) (registerPhone (js ['b'])))
    (bothLookFirst (likeRoute 1) (likeRoute 2))
  exact ⟨hall.1.mpr (by decide), hall.2.1.mpr (by decide), hall.2.2.mpr (by decide)⟩

/-- Two calls that both look before either writes leave two rows with the same key. -/
theorem two_rows_for_one_key :
    ¬ Run.Throughout Setting.protocol.step Setting.protocol.OneRow ⟨Table.empty, []⟩
        (bothLookFirst (setLanguage (js ['e', 'n'])) (setLanguage (js ['d', 'e']))) ∧
      ¬ Run.Throughout Notification.protocol.step Notification.protocol.OneRow ⟨Table.empty, []⟩
        (bothLookFirst (registerPhone (js ['a'])) (registerPhone (js ['b']))) ∧
      ¬ Run.Throughout Taggable.protocol.step Taggable.protocol.OneRow ⟨Table.empty, []⟩
        (bothLookFirst (likeRoute 1) (likeRoute 1)) := by
  refine ⟨fun h => ?_, fun h => ?_, fun h => ?_⟩
  · have hlast := ((((h.2 _ rfl).2 _ rfl).2 _ rfl).2 _ rfl)
    exact absurd hlast (by unfold Run.Throughout Protocol.OneRow; decide)
  · have hlast := ((((h.2 _ rfl).2 _ rfl).2 _ rfl).2 _ rfl)
    exact absurd hlast (by unfold Run.Throughout Protocol.OneRow; decide)
  · have hlast := ((((h.2 _ rfl).2 _ rfl).2 _ rfl).2 _ rfl)
    exact absurd hlast (by unfold Run.Throughout Protocol.OneRow; decide)

end Maiden
