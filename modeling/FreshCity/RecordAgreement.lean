import FreshCity.Records

/-!
# What the profiles know of the stored records

A profile agrees with the documents if what it has read of the money and the score in its own one is
still there. `Sync` keeps that if nobody else has the document and it is read back; the other writes
to the documents of players keep their records.
-/
namespace FreshCity
open Imperative Prog Run

/-! ## What is kept -/

/-- No two documents have the same id, and the money and the score in them are `int`s. -/
structure SoundRecords (platform : Platform) (docs : List Document) : Prop where
  ids : (docs.map documentId).Nodup
  ints : ∀ doc ∈ docs, ∀ k ∈ [Field.money, .score], ∀ n, Profile.recordIn doc k = some n →
    platform.int n = n

namespace Profile

/-- What a profile has read of its document is what is stored, and its money and its score are
`int`s. -/
structure Agrees (platform : Platform) (docs : List Document) (pr : Profile) : Prop where
  document : pr.item.uniqueid.isSet = true →
    ∃ doc, docs.find? (byId pr.item.uniqueid) = some doc ∧ wellFormed doc = true
  rawdata : ∀ k n, recordIn pr.item.rawdata k = some n →
    (docs.find? (byId pr.item.uniqueid)).bind (recordIn · k) = some n
  archive : ∀ k n, recorded pr.gamearchive k = some n → recordIn pr.item.rawdata k = some n
  money : platform.int pr.gamedata.money = pr.gamedata.money
  score : platform.int pr.gamedata.score = pr.gamedata.score

end Profile

namespace Server

structure Agree (platform : Platform) (docs : List Document) (s : Server) : Prop where
  platform_eq : s.platform = platform
  profiles : ∀ p pr, s.profiles.lookup p = some pr → pr.Agrees platform docs

structure Recorded (s : Server) : Prop where
  sound : SoundRecords s.platform (s.database.docs .profile)
  agree : s.Agree s.platform (s.database.docs .profile)

end Server

/-! ## New documents for old -/

section Documents
variable {platform : Platform} {docs docs' : List Document} {id : OID} {d d' : Document}
  {pr : Profile}

theorem SoundRecords.rewrite (h : SoundRecords platform docs) (hd : docs.find? (byId id) = some d)
    (hid : documentId d' = documentId d)
    (hints : ∀ k ∈ [Field.money, .score], ∀ n, Profile.recordIn d' k = some n →
      platform.int n = n) :
    SoundRecords platform (Database.updateFirst (byId id) d' docs) where
  ids := by
    rw [Database.map_updateFirst hd hid]
    exact h.ids
  ints doc hdoc := by
    rcases Database.mem_updateFirst hdoc with rfl | hold
    · exact hints
    · exact h.ints doc hold

theorem SoundRecords.append (h : SoundRecords platform docs)
    (hfresh : ∀ e ∈ docs, documentId e ≠ documentId d) (hnone : ∀ k, Profile.recordIn d k = none) :
    SoundRecords platform (docs ++ [d]) where
  ids := by
    rw [List.map_append, List.map_singleton, List.nodup_append]
    refine ⟨h.ids, List.nodup_singleton _, fun i hi j hj => ?_⟩
    obtain ⟨e, he, rfl⟩ := List.mem_map.mp hi
    rw [List.mem_singleton.mp hj]
    exact hfresh e he
  ints doc hdoc k hk n hn := by
    rcases List.mem_append.mp hdoc with hold | hnew
    · exact h.ints doc hold k hk n hn
    · rw [List.mem_singleton.mp hnew, hnone] at hn
      cases hn

/-- Where the document of a profile stays well formed and keeps its record, the profile agrees. -/
theorem Profile.Agrees.mono (h : pr.Agrees platform docs)
    (hdocs : ∀ doc, docs.find? (byId pr.item.uniqueid) = some doc →
      ∃ doc', docs'.find? (byId pr.item.uniqueid) = some doc' ∧
        (wellFormed doc = true → wellFormed doc' = true) ∧ ∀ k, recordIn doc' k = recordIn doc k) :
    pr.Agrees platform docs' where
  document hset := by
    obtain ⟨doc, hdoc, hwell⟩ := h.document hset
    obtain ⟨doc', hdoc', hwell', -⟩ := hdocs doc hdoc
    exact ⟨doc', hdoc', hwell' hwell⟩
  rawdata k n hn := by
    obtain ⟨doc, hdoc, hrecord⟩ := Option.bind_eq_some_iff.mp (h.rawdata k n hn)
    obtain ⟨doc', hdoc', -, hsame⟩ := hdocs doc hdoc
    rw [hdoc', Option.bind_some, hsame, hrecord]
  archive := h.archive
  money := h.money
  score := h.score

/-- A new document at the end changes nothing for the profiles. -/
theorem Profile.Agrees.append (h : pr.Agrees platform docs) : pr.Agrees platform (docs ++ [d]) :=
  h.mono fun doc hdoc =>
    ⟨doc, by rw [List.find?_append, hdoc]; rfl, fun hwell => hwell, fun _ => rfl⟩

/-- A document that is rewritten and keeps its record changes nothing for the profiles. -/
theorem Profile.Agrees.rewrite (h : pr.Agrees platform docs) (hd : docs.find? (byId id) = some d)
    (hid : documentId d' = documentId d)
    (hown : pr.item.uniqueid = id → (wellFormed d = true → wellFormed d' = true) ∧
      ∀ k, recordIn d' k = recordIn d k) :
    pr.Agrees platform (Database.updateFirst (byId id) d' docs) := by
  refine h.mono fun doc hdoc => ?_
  rw [Database.find?_updateFirst hd hid]
  split
  case isTrue heq =>
    rw [heq, hd, Option.some.injEq] at hdoc
    subst hdoc
    exact ⟨d', rfl, hown heq⟩
  case isFalse => exact ⟨doc, hdoc, fun hwell => hwell, fun _ => rfl⟩

theorem Profile.Agrees.archived {k : Field} {n : ℤ} (h : pr.Agrees platform docs)
    (hn : pr.archived k = some n) :
    (docs.find? (byId pr.item.uniqueid)).bind (recordIn · k) = some n := by
  refine h.rawdata k n ?_
  rw [Profile.archived, usedArchive] at hn
  split at hn
  · split at hn
    · exact hn
    · cases hn
  · exact h.archive k n hn

end Documents

/-! ## Changes of the profiles -/

section Profiles
open Server
variable {s t : Server} {platform : Platform} {docs : List Document} {p : ℤ} {pr : Profile}

/-- A write to one profile, seen at any id. -/
theorem Server.Agree.adjust {g : Profile → Profile} (h : s.Agree platform docs)
    (hg : ∀ pr, s.profiles.lookup p = some pr → pr.Agrees platform docs →
      (g pr).Agrees platform docs) :
    ∀ q qr, (s.profiles.adjust p g).lookup q = some qr → qr.Agrees platform docs := by
  intro q qr hqr
  rw [Map.lookup_adjust] at hqr
  split at hqr
  case isTrue hqp =>
    subst hqp
    obtain ⟨pr, hpr, rfl⟩ := Option.map_eq_some_iff.mp hqr
    exact hg pr hpr (h.profiles q pr hpr)
  case isFalse => exact h.profiles q qr hqr

/-- The kinds of change that write neither a document a profile holds nor what was loaded from it,
and neither its money nor its score. -/
def Kind.leavesRecords : Kind → Bool
  | insertProfile _ => false
  | profileItem => false
  | profileLoaded => false
  | profileGame => false
  | profileMoney => false
  | _ => true

theorem Kind.agree {k : Kind} (h : k.change s t) (hk : k.leavesRecords = true)
    (hs : s.Agree platform docs) : t.Agree platform docs := by
  have hframe := frame h
  refine ⟨hframe.platform.trans hs.platform_eq, ?_⟩
  by_cases hw : k.writesProfiles = false
  · rw [hframe.profiles hw]
    exact hs.profiles
  cases k
  case eraseProfile j =>
    obtain rfl := h
    intro q qr hqr
    exact hs.profiles q qr (Map.lookup_of_lookup_erase hqr)
  case insertProfile | profileItem | profileLoaded | profileGame | profileMoney => cases hk
  all_goals first
    | exact absurd rfl hw
    | (obtain ⟨j, g, rfl⟩ := h
       exact hs.adjust fun _ _ h => ⟨h.document, h.rawdata, h.archive, h.money, h.score⟩)

theorem keeps_agree {α : Type} {K : List Kind} {x : Game α} (hx : Stays K x)
    (hK : ∀ k ∈ K, k.leavesRecords = true) : Keeps (Agree platform docs) x :=
  hx.keeps fun k hk _ _ hab => Kind.agree hab (hK k hk)

/-- What is left of a profile when its document is read again. -/
structure Profile.Reread (pr q : Profile) : Prop where
  item : q.item = pr.item
  money : q.gamedata.money = pr.gamedata.money
  score : q.gamedata.score = pr.gamedata.score
  archive : q.gamearchive = pr.gamearchive ∨
    (pr.item.rawdata.at? [.archive, .gtasa]).bind asObj = some q.gamearchive

theorem Profile.Agrees.reread {q : Profile} (h : pr.Agrees platform docs) (hq : pr.Reread q) :
    q.Agrees platform docs where
  document := by
    rw [hq.item]
    exact h.document
  rawdata := by
    rw [hq.item]
    exact h.rawdata
  archive k n hn := by
    rw [hq.item]
    rcases hq.archive with heq | hread
    · exact h.archive k n (heq ▸ hn)
    · rw [recordIn, hread]
      exact hn
  money := by
    rw [hq.money]
    exact h.money
  score := by
    rw [hq.score]
    exact h.score

theorem Profile.wp_loadMemberData_reread : wp loadMemberData (fun _ q => q.2 = s ∧ pr.Reread q.1)
    (fun _ q => q.2 = s ∧ pr.Reread q.1) (pr, s) := by
  -- until the archive is read only the account is written, and then the nickname too
  have hold : ∀ auth, pr.Reread { pr with auth := auth } := fun _ => ⟨rfl, rfl, rfl, .inl rfl⟩
  simp only [loadMemberData, rethrowAs, check, wp_handle, wp_bind, wp_self, wp_shared, wp_gets,
    wp_orRaise, wp_assign, wp_ite, wp_raise, ite_self, true_and]
  refine ⟨fun hash _ => ⟨fun archive harchive => ?_, fun _ => hold _⟩, fun _ => hold _⟩
  have hnew : ∀ auth nickname, pr.Reread { pr with
      gamearchive := archive
      auth := auth
      gamedata := { pr.gamedata with nickname := nickname } } :=
    fun _ _ => ⟨rfl, rfl, rfl, .inr harchive⟩
  refine ⟨fun deleted _ => ⟨fun nickname _ => ⟨fun level _ => ⟨fun banned _ => ?_, fun _ => ?_⟩,
    fun _ => ?_⟩, fun _ => ?_⟩, fun _ => ?_⟩
  all_goals exact hnew _ _

instance : KeptByGifts (Agree platform docs) where
  around k hk _ _ hab := by
    have hK : ∀ k ∈ aroundMoney, k.leavesRecords = true := by simp [Kind.leavesRecords]
    exact Kind.agree hab (hK k hk)
  giveMoney p money := by
    refine keeps_of_wp fun s hs => ?_
    cases hpr : s.profiles.lookup p with
    | none => simp [Profile.giveMoney, Profile.modifyGame, Profile.ref, resetPlayerMoney, emit, hpr]
    | some pr =>
      refine Profile.wp_giveMoney hpr fun trace => ?_
      refine ⟨hs.platform_eq, hs.adjust fun _ _ h => ?_⟩
      exact ⟨h.document, h.rawdata, h.archive, hs.platform_eq ▸ s.platform.int_int _, h.score⟩
  giveScore p score := by
    refine keeps_of_wp fun s hs => ?_
    simp only [Profile.giveScore, Profile.setScore, Profile.modifyGame, setPlayerScore, Profile.ref,
      emit, wp_bind, wp_gets, wp_orUndefined, wp_modify]
    refine fun pr _ => ⟨hs.platform_eq, hs.adjust fun _ _ h => ?_⟩
    exact ⟨h.document, h.rawdata, h.archive, h.money, hs.platform_eq ▸ s.platform.int_int _⟩
  setColor p color := by
    refine keeps_of_wp fun s hs => ?_
    simp only [Profile.setColor, Profile.modifyGame, setPlayerColor, emit, wp_bind, wp_modify]
    refine ⟨hs.platform_eq, hs.adjust fun _ _ h => ?_⟩
    exact ⟨h.document, h.rawdata, h.archive, h.money, h.score⟩
  load p := by
    refine keeps_of_wp fun s hs => ?_
    rw [Profile.load, wp_focus]
    intro pr hpr
    have hback : ∀ q : Profile × Server, q.2 = s ∧ pr.Reread q.1 →
        ({ q.2 with profiles := q.2.profiles.adjust p fun r => r.takeLoaded q.1 } : Server).Agree
          platform docs := by
      rintro ⟨q, u⟩ ⟨rfl, hq⟩
      refine ⟨hs.platform_eq, hs.adjust fun r hr h => ?_⟩
      obtain rfl := Option.some.inj (hpr.symm.trans hr)
      exact h.reread ⟨rfl, rfl, rfl, hq.archive⟩
    exact wp_mono Profile.wp_loadMemberData_reread (fun _ => hback) (fun _ => hback)

/-! ### New profiles -/

theorem Profile.agrees_unsaved {addr : ℕ} :
    Profile.Agrees platform docs { item := {}, addr := addr } where
  document hset := by cases hset
  rawdata _ _ hn := by cases hn
  archive _ _ hn := by cases hn
  money := platform.int_zero
  score := platform.int_zero

theorem Profile.agrees_found {addr : ℕ} {raw : Document} {id : OID} (h : SoundRecords platform docs)
    (hraw : raw ∈ docs) (hid : documentId raw = some id) (hwell : wellFormed raw = true) :
    Profile.Agrees platform docs { item := { rawdata := raw, uniqueid := id }, addr := addr } := by
  have hfind : docs.find? (byId id) = some raw := by
    have happend : (docs ++ []).find? (byId id) = some raw :=
      Server.find?_byId (Server.uniqueIds_of_nodup h.ids) hraw hid
    rwa [List.append_nil] at happend
  refine ⟨fun _ => ⟨raw, hfind, hwell⟩, fun k n hn => ?_, fun _ _ hn => ?_, platform.int_zero,
    platform.int_zero⟩
  · rw [hfind]
    exact hn
  · cases hn

/-- A profile is constructed from what is stored. -/
theorem Profile.wp_construct_agrees {logname : Text} (h : s.Recorded)
    (hstay : s.database.fault ≠ .vanished) :
    wp (construct logname) (fun pr _ => pr.Agrees s.platform (s.database.docs .profile))
      (fun _ _ => True) s := by
  simp only [construct, SaveableItem.fetch, configCollection, allocate, wp_bind, wp_gets,
    wp_raiseIf, wp_findOne, wp_ite, wp_pure, wp_modify, wp_orRaise, wp_map, wp_withLocal,
    implies_true, true_and, and_true]
  split
  · trivial
  intro hthrow
  generalize hraw : s.database.found .profile
    (byText [.auth, .logname] (s.platform.gbkToUTF8 logname)) = raw
  split
  case isTrue => exact Profile.agrees_unsaved
  case isFalse hfound =>
    intro id hid
    have hitem : ¬SaveableItem.isEmpty { rawdata := raw, uniqueid := id } = true := hfound
    rw [if_neg hitem]
    refine wp_mono (wp_and wp_loadMemberData_password wp_loadMemberData_reread) (fun _ q hq => ?_)
      (fun _ _ _ => trivial)
    obtain ⟨⟨hwell, -⟩, -, hreread⟩ := hq
    refine (Profile.agrees_found h.sound ?_ hid hwell).reread hreread
    rw [Database.found, if_neg (by simp [hthrow]), Database.afterFind, if_neg hstay] at hraw
    cases hfind : (s.database.next.docs .profile).find?
        (byText [.auth, .logname] (s.platform.gbkToUTF8 logname)) with
    | none =>
      rw [hfind] at hraw
      exact absurd hfound (by simp [← hraw])
    | some found =>
      rw [hfind] at hraw
      exact hraw ▸ List.mem_of_find?_eq_some hfind

/-- `ProfileManager::Add` adds a profile that agrees with what is stored. -/
theorem wp_profileMgrAdd_agree (h : s.Recorded) (hstay : s.database.fault ≠ .vanished) :
    wp (profileMgrAdd p) (fun _ => Agree s.platform (s.database.docs .profile))
      (fun _ => Agree s.platform (s.database.docs .profile)) s := by
  have hconstruct : ∀ name, Keeps (Agree s.platform (s.database.docs .profile))
      (Profile.construct name) := fun name =>
    keeps_agree (K := [.output, .database, .counters]) inferInstance (by simp [Kind.leavesRecords])
  have hdestruct : ∀ pr : Profile, Keeps (Agree s.platform (s.database.docs .profile))
      pr.destruct := fun pr =>
    keeps_agree (K := [.output, .destroyTimer, .streamer]) inferInstance
      (by simp [Kind.leavesRecords])
  rw [profileMgrAdd, wp_bind, wp_gets, wp_bind]
  refine wp_mono (wp_and ((hconstruct _).wp_of_keeps h.agree) (Profile.wp_construct_agrees h hstay))
    (fun pr t ht => ?_) (fun _ _ ht => ht.1)
  obtain ⟨hagree, hpr⟩ := ht
  rw [wp_bind, wp_gets, wp_ite]
  split
  case isTrue =>
    rw [wp_bind]
    exact (hdestruct pr).wp_of_keeps hagree
  case isFalse =>
    rw [wp_bind, wp_modify]
    refine ⟨hagree.platform_eq, fun q qr hqr => ?_⟩
    replace hqr : (t.profiles.insert p pr).lookup q = some qr := hqr
    rw [Map.lookup_insert_ite] at hqr
    split at hqr
    · exact Option.some.inj hqr ▸ hpr
    · exact hagree.profiles q qr hqr

/-! ### Saved profiles -/

/-- No other profile has the document of this one. -/
def Server.Alone (s : Server) (p : ℤ) (pr : Profile) : Prop :=
  pr.item.uniqueid.isSet = true → ∀ q qr, s.profiles.lookup q = some qr → q ≠ p →
    qr.item.uniqueid ≠ pr.item.uniqueid

section Save
variable {env : Env} {d d' : Document} {g : Profile → Profile}

/-- A profile is written, and no document of a profile is. -/
theorem Server.Recorded.adjust (h : s.Recorded) (hpr : s.profiles.lookup p = some pr)
    (hplatform : t.platform = s.platform)
    (hdocs : t.database.docs .profile = s.database.docs .profile)
    (hprofiles : t.profiles = s.profiles.adjust p g)
    (hg : (g pr).Agrees s.platform (s.database.docs .profile)) : t.Recorded := by
  rw [← hplatform, ← hdocs] at hg
  refine ⟨hplatform ▸ hdocs ▸ h.sound, rfl, ?_⟩
  rw [hprofiles, hplatform, hdocs]
  refine h.agree.adjust fun r hr _ => ?_
  obtain rfl := Option.some.inj (hpr.symm.trans hr)
  exact hplatform ▸ hdocs ▸ hg

/-- A profile is written, and its own document by `Sync`. -/
theorem Server.Recorded.save (h : s.Recorded) (hpr : s.profiles.lookup p = some pr)
    (hset : pr.item.uniqueid.isSet = true) (halone : s.Alone p pr)
    (hd : s.database.stored .profile pr.item.uniqueid = some d)
    (hd' : d.setAll (Profile.syncModifier env p pr) = some d') (hplatform : t.platform = s.platform)
    (hdocs : t.database.docs = Documents.rewrite s.database.docs .profile pr.item.uniqueid d')
    (hprofiles : t.profiles = s.profiles.adjust p g)
    (hg : (g pr).Agrees s.platform
      (Database.updateFirst (byId pr.item.uniqueid) d' (s.database.docs .profile))) :
    t.Recorded := by
  have hid : documentId d' = documentId d := Database.documentId_setAll hd'
  have hagrees := h.agree.profiles p pr hpr
  have hlist : t.database.docs .profile =
      Database.updateFirst (byId pr.item.uniqueid) d' (s.database.docs .profile) := by
    rw [hdocs, Documents.rewrite, Function.update_self]
  refine ⟨?_, rfl, fun q qr hqr => ?_⟩
  · rw [hplatform, hlist]
    refine h.sound.rewrite hd hid fun k hk n hn => ?_
    obtain ⟨hmoney, hscore⟩ := Profile.recordIn_sync hd'
    simp only [List.mem_cons, List.not_mem_nil, or_false] at hk
    rcases hk with rfl | rfl
    · obtain rfl := Option.some.inj (hmoney.symm.trans hn)
      exact hagrees.money
    · obtain rfl := Option.some.inj (hscore.symm.trans hn)
      exact hagrees.score
  · rw [hplatform, hlist]
    rw [hprofiles, Map.lookup_adjust] at hqr
    split at hqr
    case isTrue =>
      rw [hpr, Option.map_some, Option.some.injEq] at hqr
      exact hqr ▸ hg
    case isFalse hqp =>
      have hother := halone hset q qr hqr hqp
      exact (h.agree.profiles q qr hqr).rewrite hd hid fun heq => absurd heq hother

/-- A profile that has read its document again after `Sync` wrote it. -/
theorem Profile.Agrees.saved {docs : List Document} (h : pr.Agrees platform docs)
    (hd : docs.find? (byId pr.item.uniqueid) = some d) (hwell : wellFormed d = true)
    (hd' : d.setAll (syncModifier env p pr) = some d') {q : Profile}
    (hitem : q.item = { pr.item with rawdata := d' })
    (harchive : (d'.at? [.archive, .gtasa]).bind asObj = some q.gamearchive)
    (hmoney : q.gamedata.money = pr.gamedata.money)
    (hscore : q.gamedata.score = pr.gamedata.score) :
    q.Agrees platform (Database.updateFirst (byId pr.item.uniqueid) d' docs) := by
  have hfind := Database.find?_updateFirst (j := pr.item.uniqueid) hd
    (Database.documentId_setAll hd')
  rw [if_pos rfl] at hfind
  refine ⟨fun _ => ⟨d', ?_, wellFormed_sync hd' hwell⟩, fun k n hn => ?_, fun k n hn => ?_,
    hmoney ▸ h.money, hscore ▸ h.score⟩
  · rw [hitem]
    exact hfind
  · rw [hitem] at hn ⊢
    rw [hfind]
    exact hn
  · rw [hitem, recordIn, harchive]
    exact hn

/-- `Sync` keeps what is recorded if no one else has the document and it is read back, or if there
was no record in what was read before. -/
theorem Profile.wp_sync_recorded (h : s.Recorded) (hreliable : s.database.Reliable)
    (hpr : s.profiles.lookup p = some pr) (halone : s.Alone p pr)
    (hwhole : s.database.savesWhole = true ∨ ∀ k, recordIn pr.item.rawdata k = none) :
    wp (sync p) (fun _ => Recorded) (fun _ => Recorded) s := by
  have hagrees := h.agree.profiles p pr hpr
  rw [sync, wp_bind, wp_gets, wp_bind, ref, wp_bind, wp_gets, hpr, orUndefined_some, wp_pure,
    wp_bind, withItem, wp_focus]
  intro item hitem
  rw [hpr, Option.map_some, Option.some.injEq] at hitem
  subst hitem
  by_cases hset : pr.item.uniqueid.isSet = true
  case neg =>
    rw [SaveableItem.update, wp_bind, wp_self, wp_bind, wp_raiseIf, if_pos (by simp [hset])]
    exact h.adjust hpr rfl rfl rfl hagrees
  obtain ⟨d, hd, hwell⟩ := hagrees.document hset
  refine wp_mono (wp_saveItem hreliable hd) (fun _ q hq => ?_) (fun _ q hq => ?_)
  · obtain ⟨⟨db, trace, hserver⟩, d', hd', hdocs, hread⟩ := hq
    rw [if_pos rfl] at hread
    rw [hserver] at hdocs ⊢
    rw [hread]
    refine wp_mono (wp_load (Map.lookup_adjust_self hpr _)) (fun _ t ht => ?_) (fun _ _ hno => ?_)
    · obtain ⟨-, loaded, archive, rfl, harchive, hloaded⟩ := ht
      refine h.save hpr hset halone hd hd' rfl hdocs (Map.adjust_adjust ..) ?_
      exact hagrees.saved hd hwell hd' rfl (harchive.trans (congrArg some hloaded.symm)) rfl rfl
    · have hwell' := wellFormed_sync hd' hwell
      exact absurd hno (by simp [hwell'])
  · obtain ⟨⟨db, trace, hserver⟩, hkept, hdocs⟩ := hq
    rw [hserver] at hdocs ⊢
    rw [hkept]
    rcases hdocs with hsame | ⟨hlost, d', hd', hdocs⟩
    · refine h.adjust hpr rfl ?_ rfl hagrees
      exact congrFun hsame .profile
    · have hnone := hwhole.resolve_left (by simp [hlost])
      refine h.save hpr hset halone hd hd' rfl hdocs rfl ?_
      have hfind := Database.find?_updateFirst (j := pr.item.uniqueid) hd
        (Database.documentId_setAll hd')
      rw [if_pos rfl] at hfind
      refine ⟨fun _ => ⟨d', hfind, wellFormed_sync hd' hwell⟩, fun k n hn => ?_, hagrees.archive,
        hagrees.money, hagrees.score⟩
      have hn' : recordIn pr.item.rawdata k = some n := hn
      exact absurd (hn'.symm.trans (hnone k)) (by simp)

end Save

/-! ### New documents -/

section Create
variable {doc : Document} {id : OID} {g : Profile → Profile}

/-- A profile is written, and a document without a record inserted. -/
theorem Server.Recorded.append (h : s.Recorded) (hpr : s.profiles.lookup p = some pr)
    (hplatform : t.platform = s.platform) (hdocs : s.Appended .profile doc t)
    (hnone : ∀ k, Profile.recordIn doc k = none) (hprofiles : t.profiles = s.profiles.adjust p g)
    (hg : (g pr).Agrees s.platform (s.database.docs .profile ++ [doc])) : t.Recorded := by
  refine ⟨?_, rfl, fun q qr hqr => ?_⟩
  · rw [hplatform, hdocs.docs]
    exact h.sound.append hdocs.fresh hnone
  · rw [hplatform, hdocs.docs]
    rw [hprofiles, Map.lookup_adjust] at hqr
    split at hqr
    case isTrue =>
      rw [hpr, Option.map_some, Option.some.injEq] at hqr
      exact hqr ▸ hg
    case isFalse => exact (h.agree.profiles q qr hqr).append

/-- An empty profile is given the id of the document that was inserted. -/
theorem Profile.Agrees.registered {docs : List Document} {raw : Document}
    (h : pr.Agrees platform docs) (hempty : pr.item.rawdata = [])
    (hfresh : ∀ d ∈ docs, documentId d ≠ some id) (hid : documentId doc = some id)
    (hwell : wellFormed doc = true) (hnone : ∀ k, recordIn raw k = none) :
    Profile.Agrees platform (docs ++ [doc])
      { pr with item := { rawdata := raw, uniqueid := id } } := by
  refine ⟨fun _ => ⟨doc, Database.find?_append_fresh hfresh hid, hwell⟩, fun k n hn => ?_,
    fun k n hn => ?_, h.money, h.score⟩
  · exact absurd ((hnone k).symm.trans hn) (by simp)
  · have hn' := h.archive k n hn
    rw [hempty] at hn'
    cases hn'

/-- `Create` keeps what is recorded. -/
theorem Profile.wp_create_recorded {logname password : Text} (h : s.Recorded)
    (hreliable : s.database.Reliable) :
    wp (create p logname password) (fun _ => Recorded) (fun _ => Recorded) s := by
  simp only [create, genOID, wp_bind, wp_gets, wp_modify, wp_pure, wp_orUndefined]
  intro digest _
  generalize hdoc : document _ logname _ digest _ _ = doc
  have hid : documentId doc = some (s.env.genoid s.genoids).val := by
    rw [← hdoc]
    rfl
  have hwell : wellFormed doc = true := hdoc ▸ wellFormed_document
  have hnone : ∀ k, recordIn doc k = none := fun k => hdoc ▸ recordIn_document
  rw [withItem, wp_focus]
  intro item hitem
  obtain ⟨pr, hpr, rfl⟩ := Option.map_eq_some_iff.mp hitem
  replace hpr : s.profiles.lookup p = some pr := hpr
  have hagrees := h.agree.profiles p pr hpr
  refine wp_mono (wp_and (wp_createItem (s := { s with genoids := s.genoids + 1 }) hreliable)
    (wp_createItem_appends (s := { s with genoids := s.genoids + 1 }) hreliable hid))
    (fun _ q hq => ?_) (fun _ q hq => ?_)
  · obtain ⟨⟨⟨db, trace, hserver⟩, hholds⟩, hempty⟩ := hq
    have huniqueid := Option.some.inj (hholds.id.symm.trans hid)
    have hfresh : ∀ d ∈ s.database.docs .profile,
        documentId d ≠ some (s.env.genoid s.genoids).val := huniqueid ▸ hholds.fresh
    have hitem' : q.1 = { rawdata := doc, uniqueid := (s.env.genoid s.genoids).val } := by
      rw [← hholds.rawdata, ← huniqueid]
    have hdocs := hholds.docs
    have hreliable' := hholds.reliable
    rw [hserver] at hdocs hreliable' ⊢
    rw [hitem']
    have hagrees' := hagrees.registered hempty hfresh hid hwell hnone
    refine wp_sync_recorded ?_ hreliable' (Map.lookup_adjust_self hpr _)
      (fun hset q qr hqr hqp heq => ?_) (.inr hnone)
    · exact h.append hpr rfl ⟨hid ▸ hfresh, hdocs⟩ hnone rfl hagrees'
    · -- who had the new id before would have its document
      replace hqr : (s.profiles.adjust p _).lookup q = some qr := hqr
      rw [Map.lookup_adjust, if_neg hqp] at hqr
      obtain ⟨d, hd, -⟩ := (h.agree.profiles q qr hqr).document (heq ▸ hset)
      have hdid := Database.documentId_of_stored hd
      rw [heq] at hdid
      exact hfresh d (List.mem_of_find?_eq_some hd) hdid
  · obtain ⟨-, ⟨db, trace, hserver⟩, hcases⟩ := hq
    rw [hserver] at hcases ⊢
    rcases hcases with ⟨hsame, hitem⟩ | ⟨hdocs, hempty, hitem⟩
    · rw [hitem]
      exact h.adjust hpr rfl hsame rfl hagrees
    · refine h.append hpr rfl ⟨hdocs.fresh, hdocs.docs⟩ hnone rfl ?_
      rcases hitem with hitem | hitem
      · rw [hitem]
        exact hagrees.append
      · rw [hitem]
        exact hagrees.registered hempty (hid ▸ hdocs.fresh) hid hwell fun k => hempty ▸ rfl

end Create

/-! ### New nicknames -/

/-- The document of a profile is rewritten, and its record is not. -/
theorem Server.Recorded.rewrite {id : OID} {d d' : Document} (h : s.Recorded)
    (hd : s.database.stored .profile id = some d) (hid : documentId d' = documentId d)
    (hwell : Profile.wellFormed d = true → Profile.wellFormed d' = true)
    (hrecord : ∀ k, Profile.recordIn d' k = Profile.recordIn d k)
    (hplatform : t.platform = s.platform)
    (hdocs : t.database.docs = Documents.rewrite s.database.docs .profile id d')
    (hprofiles : t.profiles = s.profiles) : t.Recorded := by
  have hlist : t.database.docs .profile =
      Database.updateFirst (byId id) d' (s.database.docs .profile) := by
    rw [hdocs, Documents.rewrite, Function.update_self]
  refine ⟨?_, rfl, fun q qr hqr => ?_⟩
  · rw [hplatform, hlist]
    refine h.sound.rewrite hd hid fun k hk n hn => ?_
    exact h.sound.ints d (List.mem_of_find?_eq_some hd) k hk n (hrecord k ▸ hn)
  · rw [hplatform, hlist]
    exact (h.agree.profiles q qr (hprofiles ▸ hqr)).rewrite hd hid fun _ => ⟨hwell, hrecord⟩

/-- `SetNickname` keeps what is recorded, whoever has the document. -/
theorem Profile.wp_setNickname_recorded {nickname : Text} (h : s.Recorded)
    (hreliable : s.database.Reliable) :
    wp (setNickname p nickname) (fun _ => Recorded) (fun _ => Recorded) s := by
  have hsave : wp (withItem p (SaveableItem.update .profile
      [(nicknamePath, .string (s.platform.gbkToUTF8 nickname))] false))
      (fun _ => Recorded) (fun _ => Recorded) s := by
    rw [withItem, wp_focus]
    intro item hitem
    obtain ⟨pr, hpr, rfl⟩ := Option.map_eq_some_iff.mp hitem
    have hagrees := h.agree.profiles p pr hpr
    have hkept : (s.profiles.adjust p fun r => { r with item := pr.item }) = s.profiles :=
      Map.adjust_eq_self fun r hr => by rw [Option.some.inj (hr.symm.trans hpr)]
    by_cases hset : pr.item.uniqueid.isSet = true
    case neg =>
      rw [SaveableItem.update, wp_bind, wp_self, wp_bind, wp_raiseIf, if_pos (by simp [hset])]
      exact h.adjust hpr rfl rfl rfl hagrees
    obtain ⟨d, hd, hwell⟩ := hagrees.document hset
    refine wp_mono (wp_saveItem hreliable hd) (fun _ q hq => ?_) (fun _ q hq => ?_)
    · obtain ⟨⟨db, trace, hserver⟩, d', hd', hdocs, hitem'⟩ := hq
      rw [hserver] at hdocs ⊢
      rw [hitem']
      exact h.rewrite hd (Database.documentId_setAll hd') (wellFormed_setNickname hd')
        (fun _ => recordIn_setNickname hd') rfl hdocs hkept
    · obtain ⟨⟨db, trace, hserver⟩, hitem', hdocs⟩ := hq
      rw [hserver] at hdocs ⊢
      rw [hitem']
      rcases hdocs with hsame | ⟨-, d', hd', hdocs⟩
      · exact h.adjust hpr rfl (congrFun hsame .profile) rfl hagrees
      · exact h.rewrite hd (Database.documentId_setAll hd') (wellFormed_setNickname hd')
          (fun _ => recordIn_setNickname hd') rfl hdocs hkept
  rw [setNickname, wp_bind, wp_gets, wp_bind]
  refine wp_mono hsave (fun _ t ht => ?_) (fun _ _ ht => ht)
  rw [modifyGame, wp_modify]
  refine ⟨ht.sound, ⟨rfl, ht.agree.adjust fun _ _ hpr => ?_⟩⟩
  exact ⟨hpr.document, hpr.rawdata, hpr.archive, hpr.money, hpr.score⟩

end Profiles

/-! ## Programs that leave the documents of players alone -/

/-- The kinds of change that do not write to the documents of players. -/
def Kind.sparesProfiles : Kind → Bool
  | insert .profile => false
  | update .profile => false
  | remove .profile => false
  | _ => true

namespace Server

/-- No document of a player was written since `docs`. -/
structure Quiet (docs : Documents) (s : Server) : Prop where
  journaled : s.Journaled docs
  spares : ∀ e ∈ s.trace, e.kind.sparesProfiles = true

theorem Quiet.docs {docs : Documents} {s : Server} (h : s.Quiet docs) :
    s.database.docs .profile = docs .profile := by
  refine h.journaled.replays.preserves (I := fun later => later .profile = docs .profile)
    (fun e he later hlater => ?_) rfl
  have hkind := h.spares e he
  rw [← hlater]
  cases e with
  | insert c doc => exact Effect.write_insert_of_ne (by rintro rfl; cases hkind)
  | update c id m => exact Effect.write_update_of_ne (by rintro rfl; cases hkind)
  | remove c id => exact Effect.write_remove_of_ne (by rintro rfl; cases hkind)
  | _ => rfl

/-- The profiles agree with what is stored, and no document of a player was written. -/
structure Calm (docs : Documents) (s : Server) : Prop where
  recorded : s.Recorded
  quiet : s.Quiet docs

end Server

section Calm
open Server
variable {s t : Server} {docs : Documents} {α : Type} {K : List Kind} {x : Game α} {p : ℤ}

theorem keeps_quiet (hj : Keeps (Journaled docs) x) (hx : Stays K x)
    (hK : ∀ k ∈ K, k.sparesProfiles = true) : Keeps (Quiet docs) x := by
  refine keeps_of_wp fun s hs => ?_
  have hspares := hx.invariant (I := fun u => ∀ e ∈ u.trace, e.kind.sparesProfiles = true)
    (fun k hk _ _ hab => Kind.forall_trace (P := fun j => j.sparesProfiles = true) hab (hK k hk))
    hs.spares
  exact wp_mono (wp_and (hj.wp_of_keeps hs.journaled) hspares) (fun _ _ h => ⟨h.1, h.2⟩)
    (fun _ _ h => ⟨h.1, h.2⟩)

/-- What is recorded stays so where the profiles go on agreeing with the same documents. -/
theorem wp_calm (hj : Keeps (Journaled docs) x) (hx : Stays K x)
    (hK : ∀ k ∈ K, k.sparesProfiles = true) (hs : s.Calm docs)
    (ha : wp x (fun _ => Agree s.platform (s.database.docs .profile))
      (fun _ => Agree s.platform (s.database.docs .profile)) s) :
    wp x (fun _ => Calm docs) (fun _ => Calm docs) s := by
  have hcalm : ∀ t : Server, t.Quiet docs → t.Agree s.platform (s.database.docs .profile) →
      t.Calm docs := by
    intro t hquiet hagree
    have hdocs : t.database.docs .profile = s.database.docs .profile :=
      hquiet.docs.trans hs.quiet.docs.symm
    refine ⟨⟨?_, hagree.platform_eq ▸ hdocs ▸ hagree⟩, hquiet⟩
    exact hagree.platform_eq ▸ hdocs ▸ hs.recorded.sound
  exact wp_mono (wp_and ((keeps_quiet hj hx hK).wp_of_keeps hs.quiet) ha)
    (fun _ t ht => hcalm t ht.1 ht.2) (fun _ t ht => hcalm t ht.1 ht.2)

theorem keeps_calm (hj : Keeps (Journaled docs) x) (hx : Stays K x)
    (hK : ∀ k ∈ K, k.sparesProfiles = true)
    (ha : ∀ platform list, Keeps (Agree platform list) x) : Keeps (Calm docs) x :=
  keeps_of_wp fun _ hs => wp_calm hj hx hK hs ((ha _ _).wp_of_keeps hs.recorded.agree)

/-- A program that does not write profiles in a way that matters. -/
theorem keeps_calm_of_stays (hj : Keeps (Journaled docs) x) (hx : Stays K x)
    (hK : ∀ k ∈ K, k.sparesProfiles = true ∧ k.leavesRecords = true) : Keeps (Calm docs) x :=
  keeps_calm hj hx (fun k hk => (hK k hk).1) fun _ _ => keeps_agree hx fun k hk => (hK k hk).2

end Calm
end FreshCity
