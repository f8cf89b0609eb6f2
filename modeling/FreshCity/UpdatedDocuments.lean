import FreshCity.Existence
import FreshCity.Views

/-!
# The documents that are updated

An update is made through an object and goes to the document whose id the object has. So
it takes the objects that are saved to tell which documents a program can update.
-/
namespace FreshCity
open Imperative Prog

/-- Every update that was issued goes to one of these documents. -/
def Server.UpdatesOnly (P : Collection → OID → Prop) (s : Server) : Prop :=
  ∀ c id m, Effect.update c id m ∈ s.trace → P c id

section Updates
set_option synthInstance.maxSize 1000
open Server
variable {s t : Server} {k : Kind} {K : List Kind} {P R : Collection → OID → Prop} {α : Type}
  {c : Collection} {id : OID} {m : Modifier} {refresh fetch : Bool} {data : Document}
  {item : SaveableItem}

theorem Server.UpdatesOnly.mono (h : s.UpdatesOnly P) (hPR : ∀ c id, P c id → R c id) :
    s.UpdatesOnly R := fun c id m hmem => hPR c id (h c id m hmem)

theorem Server.UpdatesOnly.of_trace (h : s.UpdatesOnly P) (htrace : t.trace = s.trace) :
    t.UpdatesOnly P := by rwa [UpdatesOnly, htrace]

theorem Server.UpdatesOnly.of_nil (h : s.trace = []) : s.UpdatesOnly P := by
  simp [UpdatesOnly, h]

theorem Server.UpdatesOnly.cons {e : Effect} (h : s.UpdatesOnly P)
    (he : ∀ c id m, e = .update c id m → P c id) :
    UpdatesOnly P { s with trace := e :: s.trace } := by
  intro c id m hmem
  rcases List.mem_cons.mp hmem with heq | hmem
  · exact he c id m heq.symm
  · exact h c id m hmem

/-- Only an update adds one to those that were issued. -/
theorem Kind.updatesOnly (h : k.change s t) (hk : ∀ c, k = .update c → ∀ id, P c id)
    (hs : s.UpdatesOnly P) : t.UpdatesOnly P := by
  by_cases hw : k.writesTrace = false
  · exact hs.of_trace ((Kind.frame h).trace hw)
  have hout : (∃ e : Effect, e.kind = k ∧ t = { s with trace := e :: s.trace }) →
      t.UpdatesOnly P := by
    rintro ⟨e, rfl, rfl⟩
    exact hs.cons fun c id m heq => hk c (congrArg Effect.kind heq) id
  cases k
  all_goals first
    | exact absurd rfl hw
    | exact hout h

/-- A program makes no updates but in collections where all are allowed. -/
theorem keeps_updatesOnly {x : Game α} (hx : Stays K x)
    (hK : ∀ c, .update c ∈ K → ∀ id, P c id) : Keeps (UpdatesOnly P) x :=
  hx.keeps fun _ hk _ _ hab ha => Kind.updatesOnly hab (fun c heq => hK c (heq ▸ hk)) ha

/-- The kinds of change of a database operation that is no update. -/
abbrev queryKinds : List Kind := [.output, .database]

instance (priority := low) keeps_updatesOnly_query {x : Game α} [hx : Stays queryKinds x] :
    Keeps (UpdatesOnly P) x := keeps_updatesOnly hx (by simp)

/-! ## Operations on an item -/

namespace SaveableItem

/-- An update goes to the document of the item, if the item has an id. -/
theorem wp_update_updates (hs : s.UpdatesOnly P)
    (hid : item.uniqueid.isSet = true → P c item.uniqueid) :
    wp (SaveableItem.update c m refresh) (fun _ q => q.2.UpdatesOnly P)
      (fun _ q => q.2.UpdatesOnly P) (item, s) := by
  have hrest : Keeps (fun q : SaveableItem × Server => q.2.UpdatesOnly P) (do
      let e ← shared getLastError
      raiseIf (!e.isEmpty) (.runtimeError (.failedToUpdate e))
      when refresh (refetch c)) := by
    unfold refetch
    infer_instance
  rw [SaveableItem.update, wp_bind, wp_self, wp_bind, wp_raiseIf]
  split
  case isTrue => exact hs
  case isFalse hset =>
    have hissued : UpdatesOnly P (s.issued (.update c item.uniqueid m)) :=
      (hs.cons fun _ _ _ heq => by
        obtain ⟨rfl, rfl, -⟩ := Effect.update.inj heq
        exact hid (by simpa using hset)).of_trace rfl
    rw [wp_bind, wp_shared, FreshCity.wp_update]
    refine ⟨fun _ _ => hissued, fun _ => ?_⟩
    exact hrest.wp_of_keeps (I := fun q : SaveableItem × Server => q.2.UpdatesOnly P)
      (hissued.of_trace rfl)

/-- An update does not change the id of the item. -/
theorem uniqueid_refetched (item : SaveableItem) (c : Collection) (db : Database) :
    (item.refetched c db).uniqueid = item.uniqueid := by
  rw [refetched]
  split <;> rfl

theorem wp_update_uniqueid : wp (SaveableItem.update c m refresh)
    (fun _ q => q.1.uniqueid = item.uniqueid) (fun _ q => q.1.uniqueid = item.uniqueid)
    (item, s) := by
  have hafter : ((ItemOp.update m refresh).after c item s.database).uniqueid = item.uniqueid := by
    rw [ItemOp.after]
    cases refresh <;> split <;> simp [uniqueid_refetched]
  exact wp_mono update_leaves (fun _ q hq => hq.2 ▸ hafter) (fun _ q hq => hq.2 ▸ hafter)

/-- A creation that returns inserted the document, and gave the item its id. -/
theorem wp_create_accepted (hid : documentId data = some id) :
    wp (SaveableItem.create c data fetch) (fun _ q => q.1.uniqueid = id ∧
      (ItemOp.create data fetch).accepted c item s.database = true) (fun _ _ => True) (item, s) := by
  refine wp_mono create_leaves (fun _ q hq => ?_) (fun _ _ _ => trivial)
  obtain ⟨hreturns, hafter⟩ := hq
  have haccepted : (ItemOp.create data fetch).accepted c item s.database = true :=
    (Bool.and_eq_true_iff.mp hreturns).1
  refine ⟨?_, haccepted⟩
  rw [hafter, ItemOp.after, if_pos haccepted]
  cases fetch <;> simp [hid, uniqueid_refetched]

end SaveableItem

/-! ## Operations on a profile -/

/-- The profile of a player has an id. -/
def Profile.Carries (p : ℤ) (id : OID) (s : Server) : Prop :=
  ∃ pr, s.profiles.lookup p = some pr ∧ pr.item.uniqueid = id

/-- The profile of a player has an id, and every update goes to one of these documents. -/
structure Profile.Updates (P : Collection → OID → Prop) (p : ℤ) (id : OID) (s : Server) : Prop where
  only : s.UpdatesOnly P
  carries : Carries p id s

/-- The kinds that neither update a document nor replace the id of a profile. -/
def Kind.keepsIds : Kind → Bool
  | update _ => false
  | profileItem => false
  | eraseProfile _ => false
  | _ => true

theorem Kind.updates {p : ℤ} (h : k.change s t) (hk : k.keepsIds = true)
    (hs : Profile.Updates P p id s) : Profile.Updates P p id t := by
  refine ⟨Kind.updatesOnly h (by rintro c rfl; cases hk) hs.only, ?_⟩
  obtain ⟨pr, hpr, hid⟩ := hs.carries
  obtain ⟨pr', hpr', hev⟩ := Kind.evolves h (p := p) (by rintro rfl; cases hk) hpr
  exact ⟨pr', hpr', by rw [hev.item (by rintro rfl; cases hk), hid]⟩

namespace Profile
variable {p : ℤ} {pr : Profile} {logname password : Text}

theorem keeps_updates {x : Game α} (hx : Stays K x) (hK : ∀ k ∈ K, k.keepsIds = true) :
    Keeps (Updates P p id) x :=
  hx.keeps fun k hk _ _ hab ha => Kind.updates hab (hK k hk) ha

/-- A method of the item leaves the profile with what it made of the item. -/
theorem wp_withItem_updates {x : Method SaveableItem Unit} {R : SaveableItem × Server → Prop}
    {E : SaveableItem × Server → Prop} {L : List Kind} (hpr : s.profiles.lookup p = some pr)
    (hx : MethodStays L x) (hL : ∀ k ∈ L, k.writesProfiles = false)
    (hwp : wp x (fun _ => R) (fun _ => E) (pr.item, s)) :
    wp (withItem p x)
      (fun _ u => ∃ q : SaveableItem × Server, R q ∧ u.trace = q.2.trace ∧
        Carries p q.1.uniqueid u)
      (fun _ u => ∃ q : SaveableItem × Server, E q ∧ u.trace = q.2.trace ∧
        Carries p q.1.uniqueid u) s := by
  have hcarries : ∀ q : SaveableItem × Server, Path Kind.change L s q.2 →
      Carries p q.1.uniqueid { q.2 with profiles := q.2.profiles.adjust p fun pr =>
        { pr with item := q.1 } } := by
    intro q hq
    have hsame : q.2.profiles = s.profiles :=
      hq.view_eq fun k hk _ _ hab => (Kind.frame hab).profiles (hL k hk)
    exact ⟨_, Map.lookup_adjust_self (hsame ▸ hpr) _, rfl⟩
  rw [withItem, wp_focus]
  intro item hitem
  rw [hpr, Option.map_some, Option.some.injEq] at hitem
  subst hitem
  exact wp_mono (wp_and hwp (hx.path _))
    (fun _ q hq => ⟨q, hq.1, rfl, hcarries q (path_of_methodPath hq.2)⟩)
    (fun _ q hq => ⟨q, hq.1, rfl, hcarries q (path_of_methodPath hq.2)⟩)

/-- An update through a profile goes to the document of the profile. -/
theorem wp_updateItem_updates (hs : s.UpdatesOnly P) (hpr : s.profiles.lookup p = some pr)
    (hid : pr.item.uniqueid.isSet = true → P .profile pr.item.uniqueid) :
    wp (withItem p (SaveableItem.update .profile m refresh))
      (fun _ => Updates P p pr.item.uniqueid) (fun _ => Updates P p pr.item.uniqueid) s := by
  have hupdate : wp (SaveableItem.update .profile m refresh)
      (fun _ q => q.2.UpdatesOnly P ∧ q.1.uniqueid = pr.item.uniqueid)
      (fun _ q => q.2.UpdatesOnly P ∧ q.1.uniqueid = pr.item.uniqueid) (pr.item, s) :=
    wp_and (SaveableItem.wp_update_updates hs hid) SaveableItem.wp_update_uniqueid
  refine wp_mono (wp_withItem_updates (L := [.output, .database, .update .profile]) hpr
    inferInstance (by simp [Kind.writesProfiles]) hupdate) ?_ ?_
  all_goals
    rintro _ u ⟨q, ⟨honly, hid⟩, htrace, hcarries⟩
    exact ⟨honly.of_trace htrace, hid ▸ hcarries⟩

/-- A save goes to the document of the profile. -/
theorem wp_sync_updates (hs : s.UpdatesOnly P) (hpr : s.profiles.lookup p = some pr)
    (hid : pr.item.uniqueid.isSet = true → P .profile pr.item.uniqueid) :
    wp (sync p) (fun _ => Updates P p pr.item.uniqueid)
      (fun _ => Updates P p pr.item.uniqueid) s := by
  have hload : Keeps (Updates P p pr.item.uniqueid) (load p) :=
    keeps_updates (K := [.output, .profileLoaded]) inferInstance (by simp [Kind.keepsIds])
  rw [sync, wp_bind, wp_gets, wp_bind, ref, wp_bind, wp_gets, hpr, orUndefined_some, wp_pure,
    wp_bind]
  exact wp_mono (wp_updateItem_updates hs hpr hid) (fun _ _ hu => hload.wp_of_keeps hu)
    (fun _ _ hu => hu)

/-- A change of the nickname goes to the document of the profile. -/
theorem wp_setNickname_updates {nickname : Text} (hs : s.UpdatesOnly P)
    (hpr : s.profiles.lookup p = some pr)
    (hid : pr.item.uniqueid.isSet = true → P .profile pr.item.uniqueid) :
    wp (setNickname p nickname) (fun _ => UpdatesOnly P) (fun _ => UpdatesOnly P) s := by
  have hstore : ∀ nick : Text, Keeps (UpdatesOnly P)
      (modifyGame p fun q => { q.gamedata with nickname := nick }) := fun nick =>
    keeps_updatesOnly (K := [.profileGame]) inferInstance (by simp)
  rw [setNickname, wp_bind, wp_gets, wp_bind]
  exact wp_mono (wp_updateItem_updates hs hpr hid)
    (fun _ _ hu => (hstore _).wp_of_keeps hu.only) (fun _ _ hu => hu.only)

/-! ## Registration -/

/-- The id of the document that a registration submits. -/
def newId (s : Server) : OID := (s.env.genoid s.genoids).val

/-- A registration gets as far as inserting a document. -/
def creates (s : Server) (p : ℤ) (logname password : Text) : Bool :=
  (s.profiles.lookup p).any fun pr =>
    (getPasswordDigest (s.platform.gbkToUTF8 password)).any fun digest =>
      (ItemOp.create (document (newId s) logname (s.platform.gbkToUTF8 logname) digest
        (s.env.ip p) s.env.time) true).accepted .profile pr.item s.database

/-- The document of a profile was inserted, and every update goes to that. -/
def Created (p : ℤ) (id : OID) (s : Server) : Prop :=
  Updates (fun c i => c = .profile ∧ i = id) p id s

theorem wp_create_updates (hs : s.UpdatesOnly fun _ _ => False) :
    wp (create p logname password)
      (fun _ u => creates s p logname password = true ∧ Created p (newId s) u)
      (fun _ u => u.UpdatesOnly (fun _ _ => False) ∨
        creates s p logname password = true ∧ Created p (newId s) u) s := by
  simp only [create, genOID, wp_bind, wp_gets, wp_modify, wp_pure, wp_orUndefined]
  intro digest hdigest
  cases hpr : s.profiles.lookup p with
  | none =>
    rw [withItem, wp_focus]
    exact fun item hitem => by simp [hpr] at hitem
  | some pr =>
  let s' : Server := { s with genoids := s.genoids + 1 }
  let doc := document (newId s) logname (s.platform.gbkToUTF8 logname) digest (s.env.ip p)
    s.env.time
  have hstay : MethodStays [.output, .database, .insert .profile]
      (SaveableItem.create .profile doc true) := inferInstance
  have hnone : wp (SaveableItem.create .profile doc true)
      (fun _ q => q.2.UpdatesOnly fun _ _ => False) (fun _ q => q.2.UpdatesOnly fun _ _ => False)
      (pr.item, s') := by
    have hpath : ∀ q : SaveableItem × Server,
        Path Kind.change [.output, .database, .insert .profile] s' q.2 →
        q.2.UpdatesOnly fun _ _ => False := fun q hq => by
      refine hq.invariant (fun k hk a b hab ha => Kind.updatesOnly hab ?_ ha) (hs.of_trace rfl)
      rintro c rfl
      simp at hk
    exact wp_mono (hstay.path _) (fun _ q hq => hpath q (path_of_methodPath hq))
      (fun _ q hq => hpath q (path_of_methodPath hq))
  have haccepted : wp (SaveableItem.create .profile doc true) (fun _ q => q.1.uniqueid = newId s ∧
      (ItemOp.create doc true).accepted .profile pr.item s.database = true) (fun _ _ => True)
      (pr.item, s') := SaveableItem.wp_create_accepted rfl
  have hcreated := wp_and haccepted hnone
  have hitem := wp_withItem_updates (s := s') hpr hstay (by simp [Kind.writesProfiles]) hcreated
  refine wp_mono hitem (fun _ u hu => ?_) (fun _ u hu => ?_)
  · obtain ⟨q, ⟨⟨hid, haccepted⟩, honly⟩, htrace, hcarries⟩ := hu
    have hcreates : creates s p logname password = true := by
      rw [creates, hpr, Option.any_some, hdigest, Option.any_some]
      exact haccepted
    obtain ⟨pr', hpr', hid'⟩ := hcarries
    rw [hid] at hid'
    have hsaved := wp_sync_updates (P := fun c i => c = .profile ∧ i = newId s)
      ((honly.of_trace htrace).mono fun _ _ hf => hf.elim) hpr' fun _ => ⟨rfl, hid'⟩
    rw [hid'] at hsaved
    exact wp_mono hsaved (fun _ _ hv => ⟨hcreates, hv⟩) (fun _ _ hv => .inr ⟨hcreates, hv⟩)
  · obtain ⟨q, ⟨-, honly⟩, htrace, -⟩ := hu
    exact .inl (honly.of_trace htrace)

end Profile
end Updates
end FreshCity
