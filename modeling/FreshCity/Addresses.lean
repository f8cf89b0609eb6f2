import FreshCity.TimerOwners

/-!
# Addresses of the profiles

A profile is constructed at an address that was not in use, and stays there. So the timer
that was given a profile saves that one and no other.
-/
namespace FreshCity
open Imperative Prog Run

/-- The addresses of the profiles were given out, to no two of them the same. -/
structure Server.Addressed (s : Server) : Prop where
  below : ∀ p pr, s.profiles.lookup p = some pr → pr.addr < s.nextaddr
  apart : ∀ p q pr qr, s.profiles.lookup p = some pr → s.profiles.lookup q = some qr →
    pr.addr = qr.addr → p = q

/-- An address was given out after those of all profiles. -/
structure Server.Reserves (a : ℕ) (s : Server) : Prop where
  addressed : s.Addressed
  reserved : a < s.nextaddr
  new : ∀ p pr, s.profiles.lookup p = some pr → pr.addr < a

namespace Kind
variable {k : Kind} {s t : Server} {p : ℤ} {pr' : Profile}

/-- A profile that was not inserted was there, and is changed by its kind alone. -/
theorem profile_of_change (h : k.change s t) (hk : k ≠ .insertProfile p)
    (hpr' : t.profiles.lookup p = some pr') :
    ∃ pr, s.profiles.lookup p = some pr ∧ pr.Evolves k pr' := by
  have hmem : p ∈ s.profiles := mem_profiles h hk (Map.mem_iff_lookup.mpr ⟨pr', hpr'⟩)
  obtain ⟨pr, hpr⟩ := Map.mem_iff_lookup.mp hmem
  have herase : k ≠ .eraseProfile p := by
    rintro rfl
    obtain rfl := h
    rw [AList.lookup_erase] at hpr'
    cases hpr'
  obtain ⟨pr'', hpr'', hev⟩ := evolves h herase hpr
  obtain rfl := Option.some.inj (hpr'.symm.trans hpr'')
  exact ⟨pr, hpr, hev⟩

/-- The kinds that insert a profile. -/
def addsProfile : Kind → Bool
  | insertProfile _ => true
  | _ => false

theorem ne_insertProfile (hk : k.addsProfile = false) : k ≠ .insertProfile p := by
  rintro rfl
  cases hk

theorem addressed (h : k.change s t) (hk : k.addsProfile = false) (hs : s.Addressed) :
    t.Addressed := by
  constructor
  · intro p pr' hpr'
    obtain ⟨pr, hpr, hev⟩ := profile_of_change h (ne_insertProfile hk) hpr'
    rw [hev.addr]
    exact (hs.below p pr hpr).trans_le (frame h).nextaddr
  · intro p q pr' qr' hpr' hqr' haddr
    obtain ⟨pr, hpr, hev⟩ := profile_of_change h (ne_insertProfile hk) hpr'
    obtain ⟨qr, hqr, hev'⟩ := profile_of_change h (ne_insertProfile hk) hqr'
    exact hs.apart p q pr qr hpr hqr (by rw [← hev.addr, ← hev'.addr, haddr])

end Kind

section Add
open Server
variable {s t : Server} {p : ℤ} {pr : Profile}

theorem keeps_addressed_of_stays {α : Type} {K : List Kind} {x : Game α} (hx : Stays K x)
    (hK : ∀ k ∈ K, k.addsProfile = false) : Keeps Addressed x :=
  hx.keeps fun k hk _ _ hab ha => Kind.addressed hab (hK k hk) ha

/-- Loading the members of a profile does not move it. -/
theorem wp_loadMemberData_addr {a : ℕ} (hs : s.Reserves a) (hpr : pr.addr = a) :
    wp Profile.loadMemberData (fun _ q => q.1.addr = a ∧ q.2.Reserves a)
      (fun _ q => q.2.Addressed) (pr, s) := by
  simp only [Profile.loadMemberData, rethrowAs, check, wp_handle, wp_bind, wp_self, wp_shared,
    wp_gets, wp_orRaise, wp_assign, wp_ite, wp_raise, ite_self, hs.addressed, implies_true, and_true]
  intros
  exact ⟨hpr, hs⟩

/-- A profile is constructed at an address that no other profile has. -/
theorem wp_construct_addr {logname : Text} (hs : s.Addressed) :
    wp (Profile.construct logname) (fun pr t => t.Reserves pr.addr) (fun _ => Addressed) s := by
  have hfetch : ∀ q, Keeps Addressed (SaveableItem.fetch .profile q) := fun _ =>
    keeps_addressed_of_stays (K := [.output, .database]) inferInstance (by simp [Kind.addsProfile])
  rw [Profile.construct, wp_bind, wp_gets, wp_bind]
  refine wp_mono ((hfetch _).wp_of_keeps hs) (fun item t ht => ?_) (fun _ _ ht => ht)
  simp only [allocate, wp_bind, wp_gets, wp_modify, wp_pure]
  have hreserves : Reserves t.nextaddr { t with nextaddr := t.nextaddr + 1 } :=
    ⟨⟨fun q qr hqr => (ht.below q qr hqr).trans (Nat.lt_succ_self _), ht.apart⟩,
      Nat.lt_succ_self _, ht.below⟩
  split
  · exact hreserves
  · rw [wp_map, wp_withLocal]
    exact wp_mono (wp_loadMemberData_addr hreserves rfl) (fun _ q hq => hq.1 ▸ hq.2)
      (fun _ _ hq => hq)

/-- The manager takes a new profile at its own address. -/
theorem wp_profileMgrAdd_addressed (hs : s.Addressed) :
    wp (profileMgrAdd p) (fun _ => Addressed) (fun _ => Addressed) s := by
  have hdestruct : ∀ pr : Profile, Keeps Addressed pr.destruct := fun _ =>
    keeps_addressed_of_stays (K := [.output, .destroyTimer, .streamer]) inferInstance
      (by simp [Kind.addsProfile])
  rw [profileMgrAdd, wp_bind, wp_gets, wp_bind]
  refine wp_mono (wp_construct_addr hs) (fun pr t ht => ?_) (fun _ _ ht => ht)
  rw [wp_bind, wp_gets, wp_ite]
  split
  case isTrue =>
    rw [wp_bind]
    exact wp_mono ((hdestruct pr).wp_of_keeps ht.addressed) (fun _ _ hu => hu) (fun _ _ hu => hu)
  case isFalse hnew =>
    rw [id_eq] at hnew
    -- whoever has the address of the new profile is the new profile
    have hlookup : ∀ q qr, (t.profiles.insert p pr).lookup q = some qr →
        (q = p ∧ qr = pr) ∨ t.profiles.lookup q = some qr := by
      intro q qr hqr
      rw [Map.lookup_insert_ite] at hqr
      split at hqr
      case isTrue hq => exact .inl ⟨hq, (Option.some.inj hqr).symm⟩
      case isFalse => exact .inr hqr
    constructor
    · intro q qr hqr
      obtain ⟨-, rfl⟩ | hold := hlookup q qr hqr
      · exact ht.reserved
      · exact ht.addressed.below q qr hold
    · intro q r qr rr hqr hrr haddr
      obtain ⟨rfl, rfl⟩ | hold := hlookup q qr hqr <;>
        obtain ⟨rfl, rfl⟩ | hold' := hlookup r rr hrr
      · rfl
      · exact absurd haddr (ht.new r rr hold').ne'
      · exact absurd haddr (ht.new q qr hold).ne
      · exact ht.addressed.apart q r qr rr hold hold' haddr

instance keeps_profileMgrAdd_addressed : Keeps Addressed (profileMgrAdd p) :=
  keeps_of_wp fun _ hs => wp_profileMgrAdd_addressed hs

end Add

section Steps
set_option synthInstance.maxSize 3000
open Server
variable {s t : Server} {p : ℤ} {e : Event} {env : Env}

theorem keeps_addressed_connect : Keeps Addressed (Event.run (.playerConnect p)) := by
  have hkinds : ∀ {α : Type} {x : Game α} [Stays [.output, .samp, .sampTeam p, .database,
      .createTimer .profile, .profileSignIn, .profileGame] x], Keeps Addressed x :=
    fun {_ _} hx => keeps_addressed_of_stays hx (by simp [Kind.addsProfile])
  unfold Event.run discard onPlayerConnect connectPlayer
  infer_instance

/-- Loading the gamemode adds one profile, which is no player's. -/
theorem keeps_addressed_loadGameMode : Keeps Addressed loadGameMode := by
  have hkinds : ∀ {α : Type} {x : Game α} [Stays [.output, .sampZones, .streamer, .database,
      .counters, .teamIds, .insertTeam, .clearTeams, .zones, .areas, .pickups, .properties,
      .destroyTimer, .reload .team, .reload .gangzone, .reload .property] x], Keeps Addressed x :=
    fun {_ _} hx => keeps_addressed_of_stays hx (by simp [Kind.addsProfile])
  have htimer : ∀ c d, c.target = .nothing → Keeps Addressed (createTimer c d true) :=
    fun c d hc => keeps_addressed_of_stays (K := [.output, .createTimer .nothing])
      (stays_createTimer .nothing hc) (by simp [Kind.addsProfile])
  have hweather : Keeps Addressed (createTimer .changeWeather 300000 true) := htimer _ _ rfl
  have htime : Keeps Addressed (createTimer .changeTime 60000 true) := htimer _ _ rfl
  unfold loadGameMode
  infer_instance

theorem addressed_step (h : s.step (e, env) = some t) (hs : s.Addressed) : t.Addressed := by
  have hbegin : (s.begin env).Addressed := ⟨hs.below, hs.apart⟩
  cases e
  case gameModeInit =>
    exact Server.of_step h (wp_gameModeInit (fun a b hab ha => Kind.addressed hab rfl ha) hbegin
      fun u hu => keeps_addressed_loadGameMode.wp_of_keeps hu)
  case playerConnect => exact Server.of_step h (keeps_addressed_connect.wp_of_keeps hbegin)
  case playerCommandText p cmdtext =>
    refine Server.of_step h (wp_commandText (fun a b hab ha => Kind.addressed hab rfl ha) hbegin
      fun pr cmd line d _ _ _ _ => ?_)
    have hstay := Command.stays_run p line d
    refine (keeps_addressed_of_stays hstay ?_).wp_of_keeps hbegin
    cases d <;> simp [Command.footprint, Kind.addsProfile]
  case dialogResponse p dialogid response listitem inputtext =>
    refine Server.of_step h (wp_dialogResponse (fun a b hab ha => Kind.addressed hab rfl ha) hbegin
      fun pr d _ _ _ => ?_)
    have hstay := Dialog.stays_callback p listitem inputtext d
    refine (keeps_addressed_of_stays hstay ?_).wp_of_keeps hbegin
    cases d <;> simp [Dialog.footprint, Kind.addsProfile]
  all_goals
    exact Server.step_invariant h (fun k hk a b hab =>
      Kind.addressed hab (by revert k; simp [Event.footprint, Kind.addsProfile])) hbegin

end Steps

section Timers
open Server
variable {s : Server} {a : ℕ} {p : ℤ} {tm : Timer}

/-- The profile that a timer is going to save is the one that minds the timer. -/
theorem minds_of_keyAt (haddr : s.Addressed) (hsaves : s.SavesMinded) (htm : tm ∈ s.timers)
    (hcallback : tm.callback = .autoSaveProfile a)
    (hkey : keyAt s.profiles (·.addr) a = some p) :
    ∃ pr, s.profiles.lookup p = some pr ∧ pr.Minds tm := by
  obtain ⟨e, he, rfl⟩ := Option.map_eq_some_iff.mp hkey
  have hat : e.2.addr = a := by simpa using List.find?_some he
  have hfound : s.profiles.lookup e.1 = some e.2 :=
    AList.mem_lookup_iff.mpr (List.mem_of_find?_eq_some he)
  have htarget : tm ∈ s.timersFor .profile :=
    mem_timersFor.mpr ⟨htm, by rw [hcallback]; rfl⟩
  obtain ⟨q, qr, hqr, hminds⟩ := hsaves.minded tm htarget
  have hsame : a = qr.addr :=
    TimerCallback.autoSaveProfile.inj (hcallback.symm.trans hminds.callback)
  obtain rfl := haddr.apart e.1 q e.2 qr hfound hqr (hat.trans hsame)
  exact ⟨qr, hqr, hminds⟩

end Timers
end FreshCity
