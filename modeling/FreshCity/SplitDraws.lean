import FreshCity.Tenures

/-!
# Draws that are split

A draw that pays moves the stamp to the time that is now, and one that pays nothing leaves
it. The days of several draws are whole days between stamps, so together they are at most
the whole days from the first stamp to the last draw.
-/
namespace FreshCity
open Imperative Prog Run

namespace Platform

/-- Numbers in a range fit into an `int`. -/
def Holds (platform : Platform) (a b : ℤ) : Prop := ∀ x, a ≤ x → x ≤ b → platform.int x = x

end Platform

namespace Property

/-- One draw of a run of draws, and the sum of what they returned. A draw that throws has no
result. -/
def drawStep (o : OID) (p : ℤ) (w : Server × ℤ) (env : Env) : Option (Server × ℤ) :=
  match draw o p (w.1.begin env) with
  | .ok n t => some (t, w.2 + n)
  | _ => none

/-- The whole days up to a time, from the last draw. -/
def idleDays (prop : Property) (now : ℤ) : ℤ := (now - prop.lastdraw) / 1440

variable {o : OID} {p now stamp last n : ℤ} {w u : Server × ℤ} {env : Env} {s : Server}
  {prop : Property} {pr : Profile}

theorem drawStep_eq_some :
    drawStep o p w env = some u ↔ ∃ n, draw o p (w.1.begin env) = .ok n u.1 ∧ u.2 = w.2 + n := by
  obtain ⟨t, total⟩ := u
  rw [drawStep]
  split
  case h_1 m v hrun =>
    simp only [Option.some.injEq, Prod.mk.injEq, hrun, Outcome.ok.injEq]
    constructor
    · rintro ⟨rfl, rfl⟩
      exact ⟨m, ⟨rfl, rfl⟩, rfl⟩
    · rintro ⟨n, ⟨rfl, rfl⟩, rfl⟩
      exact ⟨rfl, rfl⟩
  case h_2 hrun =>
    refine iff_of_false (by simp) ?_
    rintro ⟨n, hok, -⟩
    exact hrun n t hok

theorem idleDays_nonneg (h : prop.lastdraw ≤ now) : 0 ≤ prop.idleDays now := by
  rw [idleDays]
  omega

theorem idleDays_mono (h : stamp ≤ now) : prop.idleDays stamp ≤ prop.idleDays now := by
  rw [idleDays, idleDays]
  omega

/-- The days up to a stamp and those since it are no more than the days of both. -/
theorem idleDays_add_le (prop : Property) (stamp now : ℤ) :
    prop.idleDays stamp + (now - stamp) / 1440 ≤ prop.idleDays now := by
  rw [idleDays, idleDays]
  omega

theorem days_since_le (h : prop.lastdraw ≤ stamp) : (now - stamp) / 1440 ≤ prop.idleDays now := by
  rw [idleDays]
  omega

/-- What `Draw` computes, where nothing overflows. -/
theorem earns_eq (prop : Property) {platform : Platform} (hprofit : 0 ≤ prop.profit) (hstamp : prop.lastdraw ≤ now)
    (hdays : platform.Holds 0 (prop.idleDays now))
    (hearns : platform.Holds 0 (prop.idleDays now * prop.profit)) :
    earns platform prop now = prop.idleDays now * prop.profit := by
  have hnonneg := idleDays_nonneg hstamp
  have htdiv : Int.tdiv (now - prop.lastdraw) 1440 = prop.idleDays now :=
    Int.tdiv_eq_ediv_of_nonneg (by omega)
  have hint : platform.int (prop.idleDays now) = prop.idleDays now := hdays _ hnonneg le_rfl
  rw [earns, htdiv, hint]
  exact hearns _ (mul_nonneg hnonneg hprofit) le_rfl

end Property

/-! ## Runs of draws -/

section Drawing
open Property
variable {s : Server} {o : OID} {p n total stamp last : ℤ} {prop : Property} {pr : Profile}
  {w u : Server × ℤ} {env : Env} {envs : List Env}

/-- Nothing overflows in a draw of the owner at a time. -/
structure Server.HoldsDraw (s : Server) (prop : Property) (pr : Profile) (now : ℤ) : Prop where
  days : s.platform.Holds 0 (prop.idleDays now)
  earned : s.platform.Holds 0 (prop.idleDays now * prop.profit)
  money : s.platform.Holds pr.gamedata.money
    (pr.gamedata.money + prop.idleDays now * prop.profit)

/-- Draws from a state have brought the property to a stamp, in its document too, and have
paid for no more days than those up to it. -/
structure Drawing (s : Server) (o : OID) (p : ℤ) (prop : Property) (pr : Profile) (stamp : ℤ)
    (w : Server × ℤ) : Prop where
  platform : w.1.platform = s.platform
  property : w.1.properties.lookup o = some { prop with lastdraw := stamp }
  profile : ∃ pr', w.1.profiles.lookup p = some pr' ∧ pr'.item = pr.item ∧
    pr'.gamedata.money = pr.gamedata.money + w.2
  stored : ∃ doc, w.1.database.stored .property o = some doc ∧
    readInt (doc.field? .lastdraw) = some stamp
  started : prop.lastdraw ≤ stamp
  nonneg : 0 ≤ w.2
  paid : w.2 ≤ prop.idleDays stamp * prop.profit
  stranger : pr.item.uniqueid ≠ prop.owner → w.2 = 0

/-- The time of the last draw does not go back. -/
def Forward (o : OID) (s t : Server) : Prop :=
  ∀ q r, s.properties.lookup o = some q → t.properties.lookup o = some r →
    q.lastdraw ≤ r.lastdraw

/-- The money of a player. -/
def Server.moneyOf (s : Server) (p : ℤ) : ℤ :=
  ((s.profiles.lookup p).map fun pr => pr.gamedata.money).getD 0

namespace Drawing

/-- Time passes. -/
theorem begin (h : Drawing s o p prop pr stamp w) (env : Env) :
    Drawing s o p prop pr stamp (w.1.begin env, w.2) :=
  ⟨h.platform, h.property, h.profile, h.stored, h.started, h.nonneg, h.paid, h.stranger⟩

theorem forward (h : Drawing s o p prop pr stamp w) {stamp' : ℤ}
    (h' : Drawing s o p prop pr stamp' u) (hle : stamp ≤ stamp') : Forward o w.1 u.1 := by
  intro q r hq hr
  obtain rfl := Option.some.inj (h.property.symm.trans hq)
  obtain rfl := Option.some.inj (h'.property.symm.trans hr)
  exact hle

theorem moneyOf (h : Drawing s o p prop pr stamp w) :
    w.1.moneyOf p = pr.gamedata.money + w.2 := by
  obtain ⟨pr', hpr', -, hmoney⟩ := h.profile
  rw [Server.moneyOf, hpr']
  exact hmoney

/-- What is left of the days up to a later time pays for the days since the stamp. -/
theorem room (h : Drawing s o p prop pr stamp w) (hprofit : 0 ≤ prop.profit) (now : ℤ) :
    w.2 + (now - stamp) / 1440 * prop.profit ≤ prop.idleDays now * prop.profit := by
  have hdays := mul_le_mul_of_nonneg_right (prop.idleDays_add_le stamp now) hprofit
  rw [add_mul] at hdays
  have hpaid := h.paid
  omega

/-- A draw that pays pays for the days since the stamp. -/
theorem pay {t : Server} {pr' : Profile} (h : Drawing s o p prop pr stamp w)
    (hprofit : 0 ≤ prop.profit) (hid : prop.item.uniqueid = o) (hnow : stamp ≤ w.1.env.time)
    (hholds : s.HoldsDraw prop pr w.1.env.time) (hf : w.1.database.fault.isSound = true)
    (hpr : w.1.profiles.lookup p = some pr') (hitem : pr'.item = pr.item)
    (hmoney : pr'.gamedata.money = pr.gamedata.money + w.2)
    (howner : pr.item.uniqueid = prop.owner)
    (hn : n = earns w.1.platform { prop with lastdraw := stamp } w.1.env.time)
    (ht : w.1.Traded t o p { prop with lastdraw := stamp } { prop with lastdraw := w.1.env.time } n
      (drawModifier w.1.env.time)) : Drawing s o p prop pr w.1.env.time (t, w.2 + n) := by
  have hle : (w.1.env.time - stamp) / 1440 ≤ prop.idleDays w.1.env.time := days_since_le h.started
  have hle' := mul_le_mul_of_nonneg_right hle hprofit
  have hroom := h.room hprofit w.1.env.time
  have hdays : 0 ≤ (w.1.env.time - stamp) / 1440 := by omega
  have hpays := mul_nonneg hdays hprofit
  have hearned : n = (w.1.env.time - stamp) / 1440 * prop.profit := by
    rw [hn, h.platform]
    exact earns_eq { prop with lastdraw := stamp } hprofit hnow
      (fun x h0 hx => hholds.days x h0 (hx.trans hle))
      (fun x h0 hx => hholds.earned x h0 (hx.trans hle'))
  have hgiven : w.1.platform.int (pr'.gamedata.money + n) = pr.gamedata.money + (w.2 + n) := by
    have hnonneg := h.nonneg
    rw [h.platform, hmoney, add_assoc]
    exact hholds.money _ (by omega) (by omega)
  obtain ⟨doc, hdoc, -⟩ := h.stored
  have haccepted : w.1.database.refusesUpdate .property o (drawModifier w.1.env.time) = false := by
    have hwritable := ht.accepted
    simp only [writable, Bool.and_eq_true, Bool.not_eq_true'] at hwritable
    exact hid ▸ hwritable.2
  obtain ⟨doc', hset, hdoc'⟩ := Database.stored_of_sound (by decide) hf haccepted hdoc
  rw [Doc.setAt_singleton, Option.some.injEq] at hset
  have hlookup : t.profiles.lookup p = some { pr' with gamedata := { pr'.gamedata with
      money := w.1.platform.int (pr'.gamedata.money + n) } } := by
    rw [ht.profiles, Map.lookup_adjust_self hpr]
  refine ⟨ht.platform.trans h.platform, ?_, ⟨_, hlookup, hitem, hgiven⟩, ⟨doc', ?_, ?_⟩,
    h.started.trans hnow, ?_, ?_, fun hother => absurd howner hother⟩
  · rw [ht.properties, Map.lookup_adjust_self h.property]
  · rw [ht.database, hid]
    exact hdoc'
  · rw [← hset, Doc.field?_setField, if_pos rfl, readInt_int]
  · have hnonneg := h.nonneg
    dsimp only
    omega
  · dsimp only
    omega

/-- One draw at a time that is not before the stamp. -/
theorem step (h : Drawing s o p prop pr stamp w) (hprofit : 0 ≤ prop.profit)
    (hid : prop.item.uniqueid = o) (hnow : stamp ≤ env.time) (hholds : s.HoldsDraw prop pr env.time)
    (hf : ∀ f ∈ env.faults, f.isSound = true) (hu : drawStep o p w env = some u) :
    ∃ stamp', stamp ≤ stamp' ∧ stamp' ≤ env.time ∧ Drawing s o p prop pr stamp' u := by
  obtain ⟨n, hrun, htotal⟩ := drawStep_eq_some.mp hu
  obtain ⟨t, total⟩ := u
  obtain rfl : total = w.2 + n := htotal
  have hbegin := h.begin env
  obtain ⟨pr', hpr', hitem, hmoney⟩ := h.profile
  have hfault : (w.1.begin env).database.fault.isSound = true := by
    have hhead : (w.1.begin env).database.fault = env.faults.headD .none := rfl
    rw [hhead]
    cases hfaults : env.faults with
    | nil => rfl
    | cons f fs => exact hf f (by simp [hfaults])
  have hdraws : Draws (w.1.begin env) o p { prop with lastdraw := stamp } pr' n t :=
    (wp_of_ok hrun).mp (wp_draw (s := w.1.begin env) hbegin.property hpr')
  rw [Draws] at hdraws
  split at hdraws
  case isTrue hpays =>
    simp only [Property.pays, Bool.and_eq_true, decide_eq_true_eq] at hpays
    exact ⟨env.time, hnow, le_rfl, hbegin.pay hprofit hid hnow hholds hfault hpr' hitem hmoney
      (hitem ▸ hpays.1) hdraws.1 hdraws.2⟩
  case isFalse =>
    obtain ⟨rfl, rfl⟩ := hdraws
    rw [add_zero]
    exact ⟨stamp, le_rfl, hnow, hbegin⟩

end Drawing

/-- A later draw of the owner's stays within the range of the last one. -/
theorem Server.HoldsDraw.earlier {now : ℤ} (h : s.HoldsDraw prop pr last) (hprofit : 0 ≤ prop.profit)
    (hnow : now ≤ last) : s.HoldsDraw prop pr now := by
  have hdays : prop.idleDays now ≤ prop.idleDays last := idleDays_mono hnow
  have hearned := mul_le_mul_of_nonneg_right hdays hprofit
  exact ⟨fun x h0 hx => h.days x h0 (hx.trans hdays),
    fun x h0 hx => h.earned x h0 (hx.trans hearned),
    fun x h0 hx => h.money x h0 (by omega)⟩

namespace Drawing

/-- A run of draws at times that do not go back, up to the last. -/
theorem run (h : Drawing s o p prop pr stamp w) (hprofit : 0 ≤ prop.profit)
    (hid : prop.item.uniqueid = o) (hholds : s.HoldsDraw prop pr last)
    (htimes : (stamp :: envs.map Env.time).Pairwise (· ≤ ·)) (hlast : ∀ e ∈ envs, e.time ≤ last)
    (hf : ∀ e ∈ envs, ∀ f ∈ e.faults, f.isSound = true) (hstamp : stamp ≤ last) :
    AllSteps (drawStep o p) (fun w _ u => Forward o w.1 u.1) w envs ∧
      ∀ u, final (drawStep o p) w envs = some u →
        ∃ stamp' ≤ last, Drawing s o p prop pr stamp' u := by
  induction envs generalizing w stamp with
  | nil =>
    refine ⟨trivial, fun u hu => ?_⟩
    obtain rfl : w = u := by simpa using hu
    exact ⟨stamp, hstamp, h⟩
  | cons env envs ih =>
    rw [List.map_cons, List.pairwise_cons, List.pairwise_cons] at htimes
    obtain ⟨hfirst, hlater, hsorted⟩ := htimes
    have hnow : stamp ≤ env.time := hfirst _ List.mem_cons_self
    have henv : env.time ≤ last := hlast env List.mem_cons_self
    have hone : ∀ v, drawStep o p w env = some v → Forward o w.1 v.1 ∧
        AllSteps (drawStep o p) (fun w _ u => Forward o w.1 u.1) v envs ∧
        ∀ u, final (drawStep o p) v envs = some u →
          ∃ stamp' ≤ last, Drawing s o p prop pr stamp' u := by
      intro v hv
      obtain ⟨stamp', hmono, hstamp', hdrawing⟩ := h.step hprofit hid hnow
        (hholds.earlier hprofit henv) (hf env List.mem_cons_self) hv
      refine ⟨h.forward hdrawing hmono, ih hdrawing ?_ (fun e he => hlast e (List.mem_cons_of_mem _ he))
        (fun e he => hf e (List.mem_cons_of_mem _ he)) (hstamp'.trans henv)⟩
      exact List.pairwise_cons.mpr ⟨fun t ht => hstamp'.trans (hlater t ht), hsorted⟩
    refine ⟨fun v hv => ⟨(hone v hv).1, (hone v hv).2.1⟩, fun u hu => ?_⟩
    simp only [final_cons, Option.bind_eq_some_iff] at hu
    obtain ⟨v, hv, hrest⟩ := hu
    exact (hone v hv).2.2 u hrest

end Drawing

/-- What one draw returns. -/
theorem drawStep_total {v : Server × ℤ} (hprop : s.properties.lookup o = some prop)
    (hpr : s.profiles.lookup p = some pr) (hprofit : 0 ≤ prop.profit)
    (hnow : prop.lastdraw ≤ env.time) (hholds : s.HoldsDraw prop pr env.time)
    (hv : drawStep o p (s, 0) env = some v) :
    v.2 = if pr.item.uniqueid = prop.owner then prop.idleDays env.time * prop.profit else 0 := by
  obtain ⟨n, hrun, htotal⟩ := drawStep_eq_some.mp hv
  have hearns : earns s.platform prop env.time = prop.idleDays env.time * prop.profit :=
    earns_eq prop hprofit hnow hholds.days hholds.earned
  have hdraws : Draws (s.begin env) o p prop pr n v.1 :=
    (wp_of_ok hrun).mp (wp_draw (s := s.begin env) hprop hpr)
  rw [htotal, zero_add]
  rw [Draws] at hdraws
  split at hdraws
  case isTrue hpays =>
    simp only [Property.pays, Bool.and_eq_true, decide_eq_true_eq] at hpays
    rw [if_pos hpays.1, ← hearns]
    exact hdraws.1
  case isFalse hpays =>
    have hzero : pr.item.uniqueid = prop.owner → prop.idleDays env.time * prop.profit = 0 := by
      intro howner
      by_contra hne
      have hne' : earns (s.begin env).platform prop (s.begin env).env.time ≠ 0 := hearns ▸ hne
      exact hpays (by simp [Property.pays, howner, hne'])
    rw [hdraws.1]
    split
    · exact (hzero ‹_›).symm
    · rfl

/-- Draws at several times return no more than one draw at the last of them. The stamp never
goes back, stays within the last time, and is the one in the document. -/
theorem split_draws_pay_no_more (s : Server) (o : OID) (p : ℤ) (prop : Property) (pr : Profile)
    (doc : Document) (envs : List Env) (last : Env) (u v : Server × ℤ)
    (hprop : s.properties.lookup o = some prop) (hpr : s.profiles.lookup p = some pr)
    (hid : prop.item.uniqueid = o) (hprofit : 0 ≤ prop.profit)
    (hdoc : s.database.stored .property o = some doc)
    (hread : readInt (doc.field? .lastdraw) = some prop.lastdraw)
    (htimes : (prop.lastdraw :: (envs ++ [last]).map Env.time).Pairwise (· ≤ ·))
    (hf : ∀ e ∈ envs ++ [last], ∀ f ∈ e.faults, f.isSound = true)
    (hholds : s.HoldsDraw prop pr last.time)
    (hu : final (drawStep o p) (s, 0) (envs ++ [last]) = some u)
    (hv : drawStep o p (s, 0) last = some v) :
    (u.2 ≤ v.2 ∧ u.1.moneyOf p = pr.gamedata.money + u.2 ∧
      v.1.moneyOf p = pr.gamedata.money + v.2) ∧
      AllSteps (drawStep o p) (fun w _ u => Forward o w.1 u.1) (s, 0) (envs ++ [last]) ∧
      ∃ q doc', u.1.properties.lookup o = some q ∧ q.lastdraw ≤ last.time ∧
        u.1.database.stored .property o = some doc' ∧
        readInt (doc'.field? .lastdraw) = some q.lastdraw := by
  have hstart : Drawing s o p prop pr prop.lastdraw (s, 0) :=
    ⟨rfl, hprop, ⟨pr, hpr, rfl, (add_zero _).symm⟩, ⟨doc, hdoc, hread⟩, le_rfl, le_rfl,
      by simp [idleDays], fun _ => rfl⟩
  have hfirst : prop.lastdraw ≤ last.time :=
    (List.pairwise_cons.mp htimes).1 _ (by simp)
  have hlast : ∀ e ∈ envs ++ [last], e.time ≤ last.time := by
    have hsorted := (List.pairwise_cons.mp htimes).2
    rw [List.map_append, List.pairwise_append] at hsorted
    intro e he
    rcases List.mem_append.mp he with he | he
    · exact hsorted.2.2 _ (List.mem_map_of_mem he) _ (by simp)
    · rw [List.mem_singleton.mp he]
  obtain ⟨hforward, hfinal⟩ := hstart.run hprofit hid hholds htimes hlast hf hfirst
  obtain ⟨stamp, hstamp, hmany⟩ := hfinal u hu
  obtain ⟨_, -, -, hone⟩ := hstart.step hprofit hid hfirst hholds (hf last (by simp)) hv
  have hreturned := drawStep_total hprop hpr hprofit hfirst hholds hv
  refine ⟨⟨?_, hmany.moneyOf, hone.moneyOf⟩, hforward, ?_⟩
  · rw [hreturned]
    split
    case isTrue => exact hmany.paid.trans (mul_le_mul_of_nonneg_right (idleDays_mono hstamp) hprofit)
    case isFalse hother => exact (hmany.stranger hother).le
  · obtain ⟨doc', hdoc', hread'⟩ := hmany.stored
    exact ⟨_, doc', hmany.property, hstamp, hdoc', hread'⟩

end Drawing

/-! ## Three draws -/

namespace Demo

/-- The property, with a player who owns it. -/
def houseOwned : Property := { houseOnSale with owner := ⟨11⟩ }

/-- The owner is connected, and the property has a document. -/
def rented : Server :=
  { initial with
    profiles := (∅ : Map ℤ Profile).insert 0 (buyer ⟨11⟩)
    properties := (∅ : Map OID Property).insert house houseOwned
    database := { docs := fun
      | .property => [Property.document house [] ⟨0, 0, 0⟩ 10 50 0]
      | _ => [] } }

/-- Half a day, a day and a half, and two days and a half after the last draw. -/
def visits : List Env := [{ time := 720 }, { time := 2160 }] ++ [{ time := 3600 }]

end Demo

/-- Three draws return what is due for two days at most. -/
theorem split_draws_three_times :
    ((final (Property.drawStep Demo.house 0) (Demo.rented, 0) Demo.visits).get (by decide +kernel)).2 ≤
      ((Property.drawStep Demo.house 0 (Demo.rented, 0) { time := 3600 }).get
        (by decide +kernel)).2 :=
  (split_draws_pay_no_more Demo.rented Demo.house 0 Demo.houseOwned (Demo.buyer ⟨11⟩)
    (Property.document Demo.house [] ⟨0, 0, 0⟩ 10 50 0) [{ time := 720 }, { time := 2160 }]
    { time := 3600 } _ _ rfl rfl rfl (by decide) rfl (by decide +kernel) (by decide) (by simp)
    ⟨fun _ _ _ => rfl, fun _ _ _ => rfl, fun _ _ _ => rfl⟩ (Option.some_get _).symm
    (Option.some_get _).symm).1.1

end FreshCity
