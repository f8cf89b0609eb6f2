import FreshCity.Loading
import FreshCity.PropertyTrade

/-!
# What a property pays its owner

An owner is due the profit of the whole days since the purchase. A draw pays for the
whole days since the last one, and a purchase does not start the count anew.
-/
namespace FreshCity
open Imperative Prog Run

/-! ## Stamps

The time of the last draw is kept in the property and in its document. Each of the
two is left as it is, or set to the time that is now. -/

namespace Server

/-- Profits stay, and the stamps stay or are set to the time that is now. -/
structure Ages (s t : Server) : Prop where
  platform : t.platform = s.platform
  env : t.env = s.env
  cached : ∀ o prop', t.properties.lookup o = some prop' →
    ∃ prop, s.properties.lookup o = some prop ∧ prop'.item = prop.item ∧
      prop'.profit = prop.profit ∧
      (prop'.lastdraw = prop.lastdraw ∨ prop'.lastdraw = s.env.time)
  stored : ∀ o doc', t.database.stored .property o = some doc' →
    ∃ doc, s.database.stored .property o = some doc ∧
      doc'.field? .profit = doc.field? .profit ∧
      (doc'.field? .lastdraw = doc.field? .lastdraw ∨
        doc'.field? .lastdraw = some (.int s.env.time))

/-- The stamps of a property are the time that is now. -/
structure Stamped (s : Server) (o : OID) : Prop where
  cached : ∀ prop, s.properties.lookup o = some prop → prop.lastdraw = s.env.time
  stored : ∀ doc, s.database.stored .property o = some doc →
    doc.field? .lastdraw = some (.int s.env.time)

variable {s t u : Server} {o : OID} {p money : ℤ} {prop prop' : Property}

theorem Ages.refl (s : Server) : s.Ages s :=
  ⟨rfl, rfl, fun _ prop h => ⟨prop, h, rfl, rfl, .inl rfl⟩, fun _ doc h => ⟨doc, h, rfl, .inl rfl⟩⟩

theorem Ages.trans (h : s.Ages t) (h' : t.Ages u) : s.Ages u := by
  refine ⟨h'.platform.trans h.platform, h'.env.trans h.env, fun o prop'' hprop'' => ?_,
    fun o doc'' hdoc'' => ?_⟩
  · obtain ⟨prop', hprop', hitem', hprofit', hdraw'⟩ := h'.cached o prop'' hprop''
    obtain ⟨prop, hprop, hitem, hprofit, hdraw⟩ := h.cached o prop' hprop'
    rw [h.env] at hdraw'
    refine ⟨prop, hprop, hitem'.trans hitem, hprofit'.trans hprofit, ?_⟩
    rcases hdraw' with hdraw' | hdraw'
    · exact hdraw'.symm ▸ hdraw
    · exact .inr hdraw'
  · obtain ⟨doc', hdoc', hprofit', hdraw'⟩ := h'.stored o doc'' hdoc''
    obtain ⟨doc, hdoc, hprofit, hdraw⟩ := h.stored o doc' hdoc'
    rw [h.env] at hdraw'
    refine ⟨doc, hdoc, hprofit'.trans hprofit, ?_⟩
    rcases hdraw' with hdraw' | hdraw'
    · exact hdraw'.symm ▸ hdraw
    · exact .inr hdraw'

/-- Stamps that are the time that is now stay so. -/
theorem Stamped.ages (h : s.Stamped o) (h' : s.Ages t) : t.Stamped o := by
  refine ⟨fun prop' hprop' => ?_, fun doc' hdoc' => ?_⟩
  · obtain ⟨prop, hprop, -, -, hdraw⟩ := h'.cached o prop' hprop'
    rw [h'.env]
    exact hdraw.elim (fun hsame => hsame.trans (h.cached prop hprop)) id
  · obtain ⟨doc, hdoc, -, hdraw⟩ := h'.stored o doc' hdoc'
    rw [h'.env]
    exact hdraw.elim (fun hsame => hsame.trans (h.stored doc hdoc)) id

end Server

/-- The writes of a trade leave the profit alone, and stamp with the time that is now. -/
def Modifier.Trades (now : ℤ) (m : Modifier) : Prop :=
  ∃ k v, m = [([k], v)] ∧ k ≠ ._id ∧ k ≠ .profit ∧ (k = .lastdraw → v = .int now)

section Trade
open Server Property
variable {s t u : Server} {o : OID} {p n money : ℤ} {prop prop' : Property} {pr : Profile}
  {m : Modifier} {doc' : Document}

theorem drawModifier_trades (now : ℤ) : (drawModifier now).Trades now :=
  ⟨_, _, rfl, by decide, by decide, fun _ => rfl⟩

theorem ownerModifier_trades (now : ℤ) (owner : OID) : (ownerModifier owner).Trades now :=
  ⟨_, _, rfl, by decide, by decide, fun h => by cases h⟩

/-- What a write of a trade does to any document. -/
theorem stored_afterUpdate_trades {db : Database} {now : ℤ} (hm : m.Trades now)
    (h : (db.afterUpdate .property prop.item.uniqueid m).stored .property o = some doc') :
    ∃ doc, db.stored .property o = some doc ∧ doc'.field? .profit = doc.field? .profit ∧
      (doc'.field? .lastdraw = doc.field? .lastdraw ∨
        doc'.field? .lastdraw = some (.int now)) := by
  obtain ⟨k, v, rfl, hid, hprofit, hdraw⟩ := hm
  by_cases ho : o = prop.item.uniqueid
  case neg =>
    rw [Database.stored_afterUpdate_other hid fun h => ho h.2] at h
    exact ⟨doc', h, rfl, .inl rfl⟩
  subst ho
  rcases Database.stored_afterUpdate_or hid h with h | ⟨doc, hdoc, hset⟩
  · exact ⟨doc', h, rfl, .inl rfl⟩
  refine ⟨doc, hdoc, Doc.field?_setAt_of_ne hset hprofit.symm, ?_⟩
  rw [Doc.setAt_singleton, Option.some.injEq] at hset
  rw [← hset, Doc.field?_setField]
  split
  case isTrue hk => exact .inr (by rw [hdraw hk.symm])
  case isFalse => exact .inl rfl

theorem stored_docsAfter_trades {db db' : Database} {now : ℤ} (hm : m.Trades now)
    (hdocs : db'.docs = prop.item.docsAfter .property m db)
    (h : db'.stored .property o = some doc') :
    ∃ doc, db.stored .property o = some doc ∧ doc'.field? .profit = doc.field? .profit ∧
      (doc'.field? .lastdraw = doc.field? .lastdraw ∨
        doc'.field? .lastdraw = some (.int now)) := by
  rw [SaveableItem.docsAfter] at hdocs
  split at hdocs
  · exact stored_afterUpdate_trades hm ((Database.stored_congr hdocs).symm.trans h)
  · exact ⟨doc', (Database.stored_congr hdocs).symm.trans h, rfl, .inl rfl⟩

theorem Server.Refused.ages (h : s.Refused t prop m) (hm : m.Trades s.env.time) : s.Ages t := by
  obtain ⟨-, db, trace, hdocs, rfl⟩ := h
  exact ⟨rfl, rfl, fun _ q hq => ⟨q, hq, rfl, rfl, .inl rfl⟩,
    fun _ _ hdoc' => stored_docsAfter_trades hm hdocs hdoc'⟩

theorem Server.Traded.ages (h : s.Traded t o p prop prop' money m) (hm : m.Trades s.env.time)
    (hprop : s.properties.lookup o = some prop) (hitem : prop'.item = prop.item)
    (hprofit : prop'.profit = prop.profit)
    (hdraw : prop'.lastdraw = prop.lastdraw ∨ prop'.lastdraw = s.env.time) : s.Ages t := by
  refine ⟨h.platform, h.env, fun j q hq => ?_, fun j doc' hdoc' => ?_⟩
  · rw [h.properties, Map.lookup_adjust] at hq
    split at hq
    case isTrue hj =>
      rw [hprop, Option.map_some, Option.some.injEq] at hq
      subst hj hq
      exact ⟨prop, hprop, hitem, hprofit, hdraw⟩
    case isFalse => exact ⟨q, hq, rfl, rfl, .inl rfl⟩
  · rw [h.database] at hdoc'
    exact stored_afterUpdate_trades hm hdoc'

theorem Property.Draws.ages (h : Draws s o p prop pr n t) (hprop : s.properties.lookup o = some prop) :
    s.Ages t := by
  rw [Draws] at h
  split at h
  · exact h.2.ages (drawModifier_trades _) hprop rfl rfl (.inr rfl)
  · exact h.2 ▸ Ages.refl s

theorem Property.Passes.ages {owner : OID} (h : Passes s o p prop owner money t)
    (hprop : s.properties.lookup o = some prop) : s.Ages t := by
  obtain ⟨pickupid, mapicon, htraded⟩ := h
  exact htraded.ages (ownerModifier_trades _ _) hprop rfl rfl (.inl rfl)

/-- A draw that pays stamps the property and its document. -/
theorem Property.Draws.stamped (h : Draws s o p prop pr n t) (hpays : prop.pays s pr = true)
    (hprop : s.properties.lookup o = some prop) (hid : prop.item.uniqueid = o)
    (hf : s.database.fault ≠ .error []) : t.Stamped o := by
  rw [Draws, if_pos hpays] at h
  obtain ⟨-, htraded⟩ := h
  have haccepted : s.database.refusesUpdate .property o (drawModifier s.env.time) = false := by
    have hwritable := htraded.accepted
    simp only [writable, Bool.and_eq_true, Bool.not_eq_true'] at hwritable
    exact hid ▸ hwritable.2
  refine ⟨fun q hq => ?_, fun doc' hdoc' => ?_⟩
  · rw [htraded.properties, Map.lookup_adjust_self hprop, Option.some.injEq] at hq
    rw [← hq, htraded.env]
  · rw [htraded.database, hid] at hdoc'
    obtain ⟨doc, -, hset⟩ := Database.stored_of_accepted (by decide) hf haccepted hdoc'
    rw [Doc.setAt_singleton, Option.some.injEq] at hset
    rw [← hset, Doc.field?_setField, if_pos rfl, htraded.env]

theorem drawnProfit_of_ok (h : draw o p s = .ok n t) : TradeOp.drawnProfit s o p = n := by
  rw [TradeOp.drawnProfit, h]
  rfl

theorem drawnProfit_of_error {e : Exn} (h : draw o p s = .error e t) :
    TradeOp.drawnProfit s o p = 0 := by
  rw [TradeOp.drawnProfit, h]
  rfl

/-- A draw pays, and the payment is written down. -/
def TradeOp.drawPays (s : Server) (prop : Property) (pr : Profile) : Bool :=
  prop.pays s pr && prop.writable s (drawModifier s.env.time)

/-- What a draw does to the stamps, and what it pays. -/
structure DrawAccounted (s : Server) (o : OID) (p : ℤ) (prop : Property) (pr : Profile) (t : Server) :
    Prop where
  ages : s.Ages t
  paid : TradeOp.drawnProfit s o p =
    if TradeOp.drawPays s prop pr then earns s.platform prop s.env.time else 0
  stamped : TradeOp.drawPays s prop pr = true → t.Stamped o

theorem Property.Draws.accounted (hrun : draw o p s = .ok n t) (h : Draws s o p prop pr n t)
    (hprop : s.properties.lookup o = some prop) (hid : prop.item.uniqueid = o)
    (hf : s.database.fault ≠ .error []) : DrawAccounted s o p prop pr t := by
  refine ⟨h.ages hprop, ?_, fun hpays => ?_⟩
  · rw [drawnProfit_of_ok hrun, TradeOp.drawPays]
    rw [Draws] at h
    split at h
    case isTrue hpays => simp [hpays, h.2.accepted, h.1]
    case isFalse hpays => simp [hpays, h.1]
  · rw [TradeOp.drawPays, Bool.and_eq_true] at hpays
    exact h.stamped hpays.1 hprop hid hf

theorem Server.Refused.accounted {e : Exn} (hrun : draw o p s = .error e t)
    (h : s.Refused t prop (drawModifier s.env.time)) : DrawAccounted s o p prop pr t := by
  have hpays : TradeOp.drawPays s prop pr = false := by simp [TradeOp.drawPays, h.1]
  refine ⟨h.ages (drawModifier_trades _), ?_, fun h => ?_⟩
  · rw [drawnProfit_of_error hrun, hpays, if_neg Bool.false_ne_true]
  · rw [hpays] at h
    cases h

theorem DrawAccounted.ages_trans (h : DrawAccounted s o p prop pr u) (h' : u.Ages t) :
    DrawAccounted s o p prop pr t :=
  ⟨h.ages.trans h', h.paid, fun hpays => (h.stamped hpays).ages h'⟩

theorem wp_draw_accounted (hprop : s.properties.lookup o = some prop)
    (hpr : s.profiles.lookup p = some pr) (hid : prop.item.uniqueid = o)
    (hf : s.database.fault ≠ .error []) :
    wp (draw o p) (fun _ t => DrawAccounted s o p prop pr t)
      (fun _ t => DrawAccounted s o p prop pr t) s :=
  wp_mono (wp_and (wp_run _) (wp_draw hprop hpr))
    (fun _ _ h => Draws.accounted h.1 h.2 hprop hid hf) (fun _ _ h => Refused.accounted h.1 h.2.2)

/-- A sale of the owner's is a draw, as far as stamps and profits go. -/
theorem wp_sell_accounted (hprop : s.properties.lookup o = some prop)
    (hpr : s.profiles.lookup p = some pr) (hid : prop.item.uniqueid = o)
    (hf : s.database.fault ≠ .error []) :
    wp (sell o p)
      (fun _ t => (prop.owner.isSet = true ∧ pr.item.uniqueid = prop.owner) ∧
        DrawAccounted s o p prop pr t)
      (fun _ t => if prop.owner.isSet = true ∧ pr.item.uniqueid = prop.owner
        then DrawAccounted s o p prop pr t else t = s) s := by
  refine wp_mono (wp_sell hprop hpr) (fun _ t ht => ?_) (fun _ t ht => ?_)
  · obtain ⟨howner, n, u, hrun, hdraws, hpasses⟩ := ht
    refine ⟨howner, (Draws.accounted hrun hdraws hprop hid hf).ages_trans ?_⟩
    exact hpasses.ages (hdraws.lookup_property hprop)
  · split at ht
    case isFalse howner => exact (if_neg howner).mpr ht
    case isTrue howner =>
    rw [if_pos howner]
    rcases ht with ⟨⟨e, hrun⟩, hrefused⟩ | ⟨n, u, hrun, hdraws, hrefused⟩
    · exact Refused.accounted hrun hrefused
    · exact (Draws.accounted hrun hdraws hprop hid hf).ages_trans
        (hrefused.ages (ownerModifier_trades _ _))

end Trade

/-! ## Reloading the properties -/

namespace Server

/-- The properties are those that were constructed from the documents, each from the
first with its id. -/
structure Reloaded (s t : Server) : Prop where
  platform : t.platform = s.platform
  env : t.env = s.env
  docs : t.database.docs = s.database.docs
  properties : ∀ o prop, t.properties.lookup o = some prop → prop.item.uniqueid = o ∧
    ∃ doc, s.database.stored .property o = some doc ∧ prop.Reads s.platform doc

variable {s t u : Server}

/-- The documents that have been gone through are among the properties. -/
structure Reloading (s : Server) (docs : List Document) (u : Server) : Prop where
  reloaded : s.Reloaded u
  loaded : ∀ doc ∈ docs, ∀ o, documentId doc = some o → o ∈ u.properties

end Server

/-- What can only change what is shown. -/
theorem Property.wp_shows {α : Type} {x : Game α} (h : Stays [.streamer, .pickups] x) (s : Server) :
    wp x (fun _ => Shows s) (fun _ => Shows s) s := by
  refine h.invariant (fun k hk a b hab ha => ?_) ⟨_, _, rfl⟩
  obtain ⟨_, _, rfl⟩ := ha
  simp only [List.mem_cons, List.not_mem_nil, or_false] at hk
  rcases hk with rfl | rfl
  · obtain ⟨_, rfl⟩ := hab
    exact ⟨_, _, rfl⟩
  · obtain ⟨_, rfl⟩ := hab
    exact ⟨_, _, rfl⟩

/-- What is shown plays no part in a reload. -/
theorem Server.Reloading.shows {s t u : Server} {docs : List Document} (h : s.Reloading docs t)
    (h' : Property.Shows t u) : s.Reloading docs u := by
  obtain ⟨_, _, rfl⟩ := h'
  exact ⟨⟨h.reloaded.platform, h.reloaded.env, h.reloaded.docs, h.reloaded.properties⟩, h.loaded⟩

namespace PropertyManager
open Server Property
variable {s t u : Server} {doc : Document} {docs pre : List Document}

/-- The first document with an id is the one its property is constructed from. -/
theorem stored_of_split {db : Database} {c : Collection} {post : List Document} {o : OID}
    (hdocs : db.docs c = pre ++ doc :: post) (hid : documentId doc = some o)
    (hfirst : ∀ d ∈ pre, documentId d ≠ some o) : db.stored c o = some doc := by
  rw [Database.stored, hdocs, List.find?_append, List.find?_eq_none.mpr, Option.none_or,
    List.find?_cons_of_pos (Database.byId_iff.mpr hid)]
  exact fun d hd hbyId => hfirst d hd (Database.byId_iff.mp hbyId)

/-- One document of a reload. -/
theorem wp_reloadOne {post : List Document}
    (hdocs : s.database.docs .property = pre ++ doc :: post) (h : s.Reloading pre t) :
    wp (do
        let prop ← Property.ofData doc
        let _ ← add prop
        pure ()) (fun _ => s.Reloading (pre ++ [doc])) (fun _ => s.Reloaded) t := by
  rw [wp_bind]
  refine wp_mono (wp_and wp_ofData (wp_shows inferInstance t)) (fun prop u hu => ?_)
    (fun _ u hu => (h.shows hu.2).reloaded)
  obtain ⟨hconstructs, hshows⟩ := hu
  have hu := h.shows hshows
  rw [h.reloaded.platform] at hconstructs
  have hpre : ∀ v : Server, (∀ o, o ∈ u.properties → o ∈ v.properties) →
      prop.item.uniqueid ∈ v.properties →
      ∀ d ∈ pre ++ [doc], ∀ o, documentId d = some o → o ∈ v.properties := by
    intro v hmono hself d hd o ho
    rcases List.mem_append.mp hd with hd | hd
    · exact hmono o (hu.loaded d hd o ho)
    · obtain rfl := List.mem_singleton.mp hd
      obtain rfl := Option.some.inj (hconstructs.id.symm.trans ho)
      exact hself
  rw [add, wp_bind, wp_bind, wp_gets, wp_ite]
  split
  case isTrue hmem =>
    rw [wp_bind]
    refine wp_mono (wp_shows inferInstance u) (fun _ v hv => ?_)
      (fun _ v hv => (hu.shows hv).reloaded)
    have hv' := hu.shows hv
    obtain ⟨_, _, rfl⟩ := hv
    exact ⟨hv'.reloaded, hpre _ (fun _ ho => ho) hmem⟩
  case isFalse hnew =>
    refine ⟨⟨hu.reloaded.platform, hu.reloaded.env, hu.reloaded.docs, fun o q hq => ?_⟩,
      hpre _ (fun o ho => (AList.mem_insert _).mpr (.inr ho)) ((AList.mem_insert _).mpr (.inl rfl))⟩
    rw [Map.lookup_insert_ite] at hq
    split at hq
    case isFalse => exact hu.reloaded.properties o q hq
    case isTrue ho =>
      obtain rfl := Option.some.inj hq
      subst ho
      refine ⟨rfl, doc, stored_of_split hdocs hconstructs.id fun d hd hd' => hnew ?_,
        hconstructs.reads⟩
      exact hu.loaded d hd _ hd'

theorem wp_clear (hplatform : t.platform = s.platform) (henv : t.env = s.env)
    (hdocs : t.database.docs = s.database.docs) :
    wp clear (fun _ => s.Reloading []) (fun _ => s.Reloading []) t := by
  have hempty : s.Reloading [] { t with properties := ∅ } :=
    ⟨⟨hplatform, henv, hdocs, fun _ _ h => by cases h⟩, fun _ h => by cases h⟩
  rw [clear, wp_bind, wp_gets, wp_bind, wp_modify]
  exact wp_mono (wp_shows inferInstance _) (fun _ _ h => hempty.shows h) (fun _ _ h => hempty.shows h)

/-- After a reload, also one that throws, the properties have read their documents. -/
theorem wp_loadAllFromDatabase :
    wp loadAllFromDatabase (fun _ => s.Reloaded) (fun _ => s.Reloaded) s := by
  have hnext : ∀ {docs} {t : Server}, s.Reloading docs t →
      s.Reloading docs (t.setDatabase t.database.next) := fun h =>
    ⟨⟨h.reloaded.platform, h.reloaded.env, h.reloaded.docs, h.reloaded.properties⟩, h.loaded⟩
  have hissued : ∀ {docs} {t : Server} {e : Effect}, s.Reloading docs t →
      s.Reloading docs (t.issued e) := fun h =>
    ⟨⟨h.reloaded.platform, h.reloaded.env, h.reloaded.docs, h.reloaded.properties⟩, h.loaded⟩
  rw [loadAllFromDatabase, wp_bind, emit, wp_modify, wp_bind]
  refine wp_mono (wp_clear (s := s) rfl rfl rfl) (fun _ t ht => ?_) (fun _ _ h => h.reloaded)
  rw [fetchAllFromDatabase, configCollection, wp_bind, wp_bind, wp_gets, wp_raiseIf]
  split
  · exact ht.reloaded
  rw [wp_bind, wp_issue]
  refine ⟨fun _ _ => (hissued ht).reloaded, fun _ => ?_⟩
  have ht' := hissued (e := .queryAll .property) ht
  rw [wp_bind, wp_gets]
  refine wp_mono (wp_forEach_visited (I := s.Reloading) ht' fun pre doc post hsplit u hu => ?_)
    (fun _ _ h => h.reloaded) (fun _ _ h => h)
  rw [wp_bind, wp_nextFault]
  refine ⟨fun _ _ => (hnext hu).reloaded, fun _ => ?_⟩
  rw [ht'.reloaded.docs] at hsplit
  exact wp_reloadOne hsplit (hnext hu)

end PropertyManager

/-! ## One trade -/

namespace TradeOp

/-- An operation draws, and the draw pays. -/
def pays (s : Server) (prop : Property) (pr : Profile) : TradeOp → Bool
  | purchase _ _ => false
  | _ => drawPays s prop pr

end TradeOp

section Trade
open Server Property
variable {s t : Server} {op : TradeOp} {prop : Property} {pr : Profile}

/-- What an operation does to the stamps, and what it pays. -/
structure TradeAccounted (s : Server) (op : TradeOp) (prop : Property) (pr : Profile) (t : Server) :
    Prop where
  ages : s.Ages t
  paid : op.paid s = if op.pays s prop pr then earns s.platform prop s.env.time else 0
  stamped : op.pays s prop pr = true → t.Stamped op.property

theorem wp_trade (hprop : s.properties.lookup op.property = some prop)
    (hpr : s.profiles.lookup op.player = some pr) (hid : prop.item.uniqueid = op.property)
    (hset : pr.item.uniqueid.isSet = true) (hf : s.database.fault ≠ .error []) :
    wp op.run (fun _ t => TradeAccounted s op prop pr t) (fun _ t => TradeAccounted s op prop pr t)
      s := by
  cases op with
  | purchase o p =>
    have hages : ∀ t, s.Ages t → TradeAccounted s (.purchase o p) prop pr t := fun t ht =>
      ⟨ht, rfl, fun h => by cases h⟩
    refine wp_mono (wp_purchase hprop hpr) (fun _ t ht => hages t (ht.2.2.ages hprop))
      (fun _ t ht => hages t ?_)
    rcases ht with ⟨rfl, -⟩ | hrefused
    · exact Ages.refl t
    · exact hrefused.ages (ownerModifier_trades _ _)
  | draw o p =>
    rw [TradeOp.run, wp_discard]
    exact wp_mono (wp_draw_accounted hprop hpr hid hf) (fun _ _ h => ⟨h.ages, h.paid, h.stamped⟩)
      (fun _ _ h => ⟨h.ages, h.paid, h.stamped⟩)
  | sell o p =>
    have hpaid : (TradeOp.sell o p).paid s = if prop.owner.isSet = true ∧
        pr.item.uniqueid = prop.owner then TradeOp.drawnProfit s o p else 0 := by
      have hprop' : s.properties.lookup o = some prop := hprop
      have hpr' : s.profiles.lookup p = some pr := hpr
      simp [TradeOp.paid, hprop', hpr']
    refine wp_mono (wp_sell_accounted hprop hpr hid hf) (fun _ t ht => ?_) (fun _ t ht => ?_)
    · exact ⟨ht.2.ages, by rw [hpaid, if_pos ht.1]; exact ht.2.paid, ht.2.stamped⟩
    · split at ht
      case isTrue howner => exact ⟨ht.ages, by rw [hpaid, if_pos howner]; exact ht.paid, ht.stamped⟩
      case isFalse howner =>
      have hpays : (TradeOp.sell o p).pays s prop pr = false := by
        by_contra hpays
        simp only [TradeOp.pays, TradeOp.drawPays, Property.pays, Bool.not_eq_false,
          Bool.and_eq_true, decide_eq_true_eq] at hpays
        exact howner ⟨hpays.1.1 ▸ hset, hpays.1.1⟩
      rw [ht]
      refine ⟨Ages.refl s, by rw [hpaid, if_neg howner, hpays, if_neg Bool.false_ne_true], fun h => ?_⟩
      rw [hpays] at h
      cases h

end Trade

/-! ## Tenures -/

/-- What an owner was paid since the purchase. -/
structure Tenure where
  owner : OID
  since : ℤ
  paid : ℤ := 0
  deriving DecidableEq

/-- The last purchase of every property that was purchased. -/
abbrev Tenures : Type := OID → Option Tenure

namespace Tenure

/-- The whole days since the purchase. -/
def days (tn : Tenure) (now : ℤ) : ℤ := (now - tn.since) / 1440

/-- Nothing was paid yet, or only days that end before a stamp. -/
def Covers (tn : Tenure) (profit stamp : ℤ) : Prop :=
  tn.paid = 0 ∨ tn.since ≤ stamp ∧ tn.paid ≤ profit * tn.days stamp

variable {tn : Tenure} {profit stamp now : ℤ}

theorem days_mono (h : stamp ≤ now) : tn.days stamp ≤ tn.days now := by
  rw [days, days]
  omega

/-- A stamp from the future does not pay. -/
theorem tdiv_nonpos (h : now ≤ stamp) : Int.tdiv (now - stamp) 1440 ≤ 0 := by
  have hnonneg := Int.tdiv_nonneg (a := stamp - now) (b := 1440) (by omega) (by decide)
  rwa [← neg_sub stamp now, Int.neg_tdiv, neg_nonpos]

/-- The days since a stamp are days since the purchase that are not paid yet. -/
theorem days_add_tdiv (hstamp : stamp ≤ now) :
    tn.days stamp + Int.tdiv (now - stamp) 1440 ≤ tn.days now := by
  rw [days, days, Int.tdiv_eq_ediv_of_nonneg (by omega)]
  omega

theorem tdiv_le_days (h : tn.since ≤ stamp) (hnow : tn.since ≤ now) :
    Int.tdiv (now - stamp) 1440 ≤ tn.days now := by
  rw [days]
  by_cases hstamp : stamp ≤ now
  · rw [Int.tdiv_eq_ediv_of_nonneg (by omega)]
    omega
  · have hneg := tdiv_nonpos (lt_of_not_ge hstamp).le
    omega

/-- A payment for the days since a stamp keeps what is paid within what is due. -/
theorem paid_add_le (hprofit : 0 ≤ profit)
    (hdue : tn.paid ≤ profit * tn.days now) (hcovers : tn.Covers profit stamp)
    (hdays : Int.tdiv (now - stamp) 1440 ≤ tn.days now) :
    tn.paid + Int.tdiv (now - stamp) 1440 * profit ≤ profit * tn.days now := by
  rcases hcovers with hzero | ⟨hstamp, hpaid⟩
  · rw [hzero, zero_add, mul_comm]
    exact mul_le_mul_of_nonneg_left hdays hprofit
  · by_cases hfuture : stamp ≤ now
    · have hadd : tn.days stamp + Int.tdiv (now - stamp) 1440 ≤ tn.days now := days_add_tdiv hfuture
      have hsum := mul_le_mul_of_nonneg_left hadd hprofit
      rw [mul_add] at hsum
      linarith [mul_comm profit (Int.tdiv (now - stamp) 1440)]
    · have hneg := tdiv_nonpos (lt_of_not_ge hfuture).le
      have := mul_nonpos_of_nonpos_of_nonneg hneg hprofit
      linarith

/-- A payment for more days than those since the purchase exceeds what is due. -/
theorem lt_paid_add (hprofit : 0 < profit) (hsince : tn.since ≤ now)
    (hcovers : tn.Covers profit stamp) (hdays : tn.days now < Int.tdiv (now - stamp) 1440) :
    profit * tn.days now < tn.paid + Int.tdiv (now - stamp) 1440 * profit := by
  rcases hcovers with hzero | ⟨hstamp, -⟩
  · rw [hzero, zero_add, mul_comm]
    exact mul_lt_mul_of_pos_right hdays hprofit
  · exact absurd (tdiv_le_days hstamp hsince) (not_le.mpr hdays)

end Tenure

/-! ## Runs of the market -/

/-- The operations of the trade, and reloads of the properties. -/
inductive MarketOp where
  | trade (op : TradeOp)
  | reload
  deriving DecidableEq

namespace TradeOp

/-- The id of the player an operation is for. -/
def playerId (s : Server) (op : TradeOp) : OID :=
  ((s.profiles.lookup op.player).map (·.item.uniqueid)).getD OID.unset

/-- The tenure of the operation's property after it: a purchase that returns begins one,
and what the owner is paid is added up. -/
def tenure (s : Server) (op : TradeOp) (tn : Option Tenure) : Option Tenure :=
  match op with
  | purchase _ _ =>
    if (op.run s).value?.isSome then some { owner := op.playerId s, since := s.env.time } else tn
  | _ => tn.map fun tn =>
    if tn.owner = op.playerId s then { tn with paid := tn.paid + op.paid s } else tn

/-- An operation does not pay the owner for more days than those since the purchase. -/
def timely (s : Server) (op : TradeOp) (tn : Option Tenure) : Bool :=
  tn.all fun tn => (s.properties.lookup op.property).all fun prop =>
    (s.profiles.lookup op.player).all fun pr =>
      decide (tn.owner ≠ pr.item.uniqueid) || !op.pays s prop pr ||
        decide (Int.tdiv (s.env.time - prop.lastdraw) 1440 ≤ tn.days s.env.time)

end TradeOp

namespace MarketOp

def run : MarketOp → Game Unit
  | trade op => op.run
  | reload => PropertyManager.loadAllFromDatabase

/-- The player of a trade is registered. -/
def registered (s : Server) : MarketOp → Bool
  | trade op => (s.profiles.lookup op.player).all fun pr => pr.item.uniqueid.isSet
  | reload => true

/-- Time does not go back, players are registered, and an error of the database has a text. -/
def admits (s : Server) (i : MarketOp × Env) : Bool :=
  decide (s.env.time ≤ i.2.time) && i.2.faults.all (fun f => decide (f ≠ .error [])) &&
    i.1.registered s

/-- One operation, which may throw. -/
def step (s : Server) (i : MarketOp × Env) : Option Server :=
  if admits s i then (i.1.run (s.begin i.2)).state? else none

/-- The tenures after an operation. -/
def see (s : Server) (g : Tenures) (i : MarketOp × Env) (_ : Server) : Tenures :=
  match i.1 with
  | trade op => Function.update g op.property (op.tenure (s.begin i.2) (g op.property))
  | reload => g

/-- An operation is timely for the tenure of its property. -/
def timely (w : Server × Tenures) (i : MarketOp × Env) : Bool :=
  match i.1 with
  | trade op => op.timely (w.1.begin i.2) (w.2 op.property)
  | reload => true

end MarketOp

namespace Server

/-- Properties are known by their ids, and their profits do not change. -/
structure ConstantProfits (P : OID → ℤ) (s : Server) : Prop where
  keyed : ∀ o prop, s.properties.lookup o = some prop → prop.item.uniqueid = o
  cached : ∀ o prop, s.properties.lookup o = some prop → prop.profit = P o
  stored : ∀ o doc n, s.database.stored .property o = some doc →
    readInt (doc.field? .profit) = some n → n = P o

end Server

namespace Tenures

/-- No owner was paid more than the profit of the whole days since the purchase. -/
def Due (P : OID → ℤ) (w : Server × Tenures) : Prop :=
  ∀ o tn, w.2 o = some tn → tn.paid ≤ P o * tn.days w.1.env.time

end Tenures

/-- The payments so far are due, and the stamps cover them. -/
structure Tenured (P : OID → ℤ) (s : Server) (g : Tenures) : Prop where
  int : s.platform.int = id
  profits : s.ConstantProfits P
  since : ∀ o tn, g o = some tn → tn.since ≤ s.env.time
  due : Tenures.Due P (s, g)
  cached : ∀ o tn prop, g o = some tn → s.properties.lookup o = some prop →
    tn.Covers (P o) prop.lastdraw
  stored : ∀ o tn doc n, g o = some tn → s.database.stored .property o = some doc →
    readInt (doc.field? .lastdraw) = some n → tn.Covers (P o) n

namespace Tenured
variable {P : OID → ℤ} {s t : Server} {g : Tenures} {env : Env} {o : OID} {tn tn' : Tenure}

theorem covers_now (h : Tenured P s g) (htn : g o = some tn) : tn.Covers (P o) s.env.time :=
  .inr ⟨h.since o tn htn, h.due o tn htn⟩

/-- Time passes. -/
theorem begin (h : Tenured P s g) (hP : ∀ o, 0 ≤ P o) (henv : s.env.time ≤ env.time) :
    Tenured P (s.begin env) g := by
  refine ⟨h.int, ⟨h.profits.keyed, h.profits.cached, h.profits.stored⟩,
    fun o tn htn => (h.since o tn htn).trans henv, fun o tn htn => ?_, h.cached, h.stored⟩
  exact (h.due o tn htn).trans (mul_le_mul_of_nonneg_left (Tenure.days_mono henv) (hP o))

/-- Stamps that stay or are set to the time that is now still cover the payments. -/
theorem ages (h : Tenured P s g) (hages : s.Ages t) : Tenured P t g := by
  refine ⟨hages.platform ▸ h.int, ⟨fun o q hq => ?_, fun o q hq => ?_, fun o doc n hdoc hn => ?_⟩,
    hages.env ▸ h.since, ?_, fun o tn q htn hq => ?_, fun o tn doc n htn hdoc hn => ?_⟩
  · obtain ⟨prop, hprop, hitem, -, -⟩ := hages.cached o q hq
    exact (congrArg _ hitem).trans (h.profits.keyed o prop hprop)
  · obtain ⟨prop, hprop, -, hprofit, -⟩ := hages.cached o q hq
    exact hprofit.trans (h.profits.cached o prop hprop)
  · obtain ⟨doc', hdoc', hprofit, -⟩ := hages.stored o doc hdoc
    exact h.profits.stored o doc' n hdoc' (hprofit ▸ hn)
  · intro o tn htn
    have hdue := h.due o tn htn
    rwa [← hages.env] at hdue
  · obtain ⟨prop, hprop, -, -, hdraw⟩ := hages.cached o q hq
    rcases hdraw with hdraw | hdraw
    · exact hdraw ▸ h.cached o tn prop htn hprop
    · exact hdraw ▸ h.covers_now htn
  · obtain ⟨doc', hdoc', -, hdraw⟩ := hages.stored o doc hdoc
    rcases hdraw with hdraw | hdraw
    · exact h.stored o tn doc' n htn hdoc' (hdraw ▸ hn)
    · rw [hdraw, readInt_int, Option.some.injEq] at hn
      exact hn ▸ h.covers_now htn

/-- A reload takes the stamps from the documents. -/
theorem reloaded (h : Tenured P s g) (hreload : s.Reloaded t) : Tenured P t g := by
  have hstored : ∀ o, t.database.stored .property o = s.database.stored .property o := fun o =>
    Database.stored_congr hreload.docs
  refine ⟨hreload.platform ▸ h.int, ⟨fun o q hq => ?_, fun o q hq => ?_, fun o doc n hdoc hn => ?_⟩,
    hreload.env ▸ h.since, ?_, fun o tn q htn hq => ?_, fun o tn doc n htn hdoc hn => ?_⟩
  · exact (hreload.properties o q hq).1
  · obtain ⟨-, doc, hdoc, hreads⟩ := hreload.properties o q hq
    exact h.profits.stored o doc _ hdoc hreads.profit
  · exact h.profits.stored o doc n (hstored o ▸ hdoc) hn
  · intro o tn htn
    have hdue := h.due o tn htn
    rwa [← hreload.env] at hdue
  · obtain ⟨-, doc, hdoc, hreads⟩ := hreload.properties o q hq
    exact h.stored o tn doc _ htn hdoc hreads.lastdraw
  · exact h.stored o tn doc n htn (hstored o ▸ hdoc) hn

/-- A tenure that changes is due, and covered by the stamps. -/
theorem update (h : Tenured P s g) {new : Option Tenure}
    (hnew : ∀ tn, new = some tn → g o = some tn ∨ tn.since ≤ s.env.time ∧
      tn.paid ≤ P o * tn.days s.env.time ∧ (tn.paid = 0 ∨ s.Stamped o)) :
    Tenured P s (Function.update g o new) := by
  have hcases : ∀ j tn, Function.update g o new j = some tn → g j = some tn ∨
      j = o ∧ tn.since ≤ s.env.time ∧ tn.paid ≤ P o * tn.days s.env.time ∧
        (tn.paid = 0 ∨ s.Stamped o) := by
    intro j tn htn
    rw [Function.update_apply] at htn
    split at htn
    case isFalse => exact .inl htn
    case isTrue hj =>
      subst hj
      exact (hnew tn htn).imp_right fun h => ⟨rfl, h⟩
  refine ⟨h.int, h.profits, fun j tn htn => ?_, fun j tn htn => ?_, fun j tn q htn hq => ?_,
    fun j tn doc n htn hdoc hn => ?_⟩
  all_goals rcases hcases j tn htn with hold | ⟨rfl, hsince, hdue, hpaid⟩
  · exact h.since j tn hold
  · exact hsince
  · exact h.due j tn hold
  · exact hdue
  · exact h.cached j tn q hold hq
  · exact hpaid.imp_right fun hstamp => by rw [hstamp.cached q hq]; exact ⟨hsince, hdue⟩
  · exact h.stored j tn doc n hold hdoc hn
  · refine hpaid.imp_right fun hstamp => ?_
    rw [hstamp.stored doc hdoc, readInt_int, Option.some.injEq] at hn
    exact hn ▸ ⟨hsince, hdue⟩

end Tenured

section Step
open Server Property
variable {P : OID → ℤ} {s t : Server} {g : Tenures} {op : TradeOp} {prop : Property} {pr : Profile}
  {tn : Tenure}

/-- A draw that pays, pays for the days since the stamp. -/
theorem TradeAccounted.paid_of_pays (ha : TradeAccounted s op prop pr t) (h : Tenured P s g)
    (hprop : s.properties.lookup op.property = some prop) (hpays : op.pays s prop pr = true) :
    op.paid s = Int.tdiv (s.env.time - prop.lastdraw) 1440 * P op.property ∧ P op.property ≠ 0 := by
  have hearns : earns s.platform prop s.env.time =
      Int.tdiv (s.env.time - prop.lastdraw) 1440 * P op.property := by
    rw [earns, h.int, id_eq, id_eq, h.profits.cached _ _ hprop]
  refine ⟨by rw [ha.paid, if_pos hpays, hearns], fun hzero => ?_⟩
  have hnonzero : earns s.platform prop s.env.time ≠ 0 := by
    cases op <;> simp_all [TradeOp.pays, TradeOp.drawPays, Property.pays]
  exact hnonzero (by rw [hearns, hzero, mul_zero])

/-- A payment is due exactly if it is not for more days than those since the purchase. -/
theorem TradeAccounted.due_iff (ha : TradeAccounted s op prop pr t) (h : Tenured P s g)
    (hP : ∀ o, 0 ≤ P o) (hprop : s.properties.lookup op.property = some prop)
    (htn : g op.property = some tn) :
    tn.paid + op.paid s ≤ P op.property * tn.days s.env.time ↔
      op.pays s prop pr = true →
        Int.tdiv (s.env.time - prop.lastdraw) 1440 ≤ tn.days s.env.time := by
  by_cases hpays : op.pays s prop pr = true
  case neg =>
    have hdue : tn.paid ≤ P op.property * tn.days s.env.time := h.due _ _ htn
    rw [ha.paid, if_neg hpays, add_zero]
    exact iff_of_true hdue fun h => absurd h hpays
  obtain ⟨hpaid, hnonzero⟩ := ha.paid_of_pays h hprop hpays
  have hcovers := h.cached _ _ _ htn hprop
  rw [hpaid]
  refine ⟨fun hle _ => ?_, fun hdays => Tenure.paid_add_le (hP _) (h.due _ _ htn) hcovers (hdays hpays)⟩
  by_contra hdays
  have hpos : 0 < P op.property := lt_of_le_of_ne (hP _) (Ne.symm hnonzero)
  exact absurd hle (not_le.mpr
    (Tenure.lt_paid_add hpos (h.since _ _ htn) hcovers (not_le.mp hdays)))

theorem TradeOp.playerId_eq (hpr : s.profiles.lookup op.player = some pr) :
    op.playerId s = pr.item.uniqueid := by
  rw [TradeOp.playerId, hpr]
  rfl

/-- A tenure that is due after the operation. -/
theorem TradeAccounted.tenure_due_iff (ha : TradeAccounted s op prop pr t) (h : Tenured P s g)
    (hP : ∀ o, 0 ≤ P o) (hprop : s.properties.lookup op.property = some prop)
    (hpr : s.profiles.lookup op.player = some pr) :
    (∀ tn, op.tenure s (g op.property) = some tn →
        tn.paid ≤ P op.property * tn.days s.env.time) ↔
      op.timely s (g op.property) = true := by
  have hdraw : op.tenure s (g op.property) = ((g op.property).map fun tn =>
      if tn.owner = op.playerId s then { tn with paid := tn.paid + op.paid s } else tn) →
      ((∀ tn, op.tenure s (g op.property) = some tn →
        tn.paid ≤ P op.property * tn.days s.env.time) ↔
        op.timely s (g op.property) = true) := by
    intro htenure
    rw [htenure, TradeOp.timely, TradeOp.playerId_eq hpr, hprop, hpr]
    cases htn : g op.property with
    | none => simp
    | some tn =>
      have hdue := ha.due_iff h hP hprop htn
      have hold : tn.paid ≤ P op.property * tn.days s.env.time := h.due _ _ htn
      by_cases howner : tn.owner = pr.item.uniqueid
      · simp only [Option.map_some, Option.some.injEq, forall_eq', howner, if_true, Option.all_some,
          ne_eq, not_true_eq_false, decide_false, Bool.false_or, Bool.or_eq_true, Bool.not_eq_true',
          decide_eq_true_eq, ← Bool.not_eq_true, ← imp_iff_not_or]
        exact hdue
      · simpa [howner] using hold
  cases op with
  | draw o p => exact hdraw rfl
  | sell o p => exact hdraw rfl
  | purchase o p =>
    refine iff_of_true (fun tn htn => ?_) ?_
    · rw [TradeOp.tenure] at htn
      split at htn
      · obtain rfl := Option.some.inj htn
        simp [Tenure.days]
      · exact h.due _ _ htn
    · simp only [TradeOp.timely, TradeOp.pays]
      simp

/-- The payments and the stamps after an operation that was timely. -/
theorem TradeAccounted.tenured (ha : TradeAccounted s op prop pr t) (h : Tenured P s g)
    (hP : ∀ o, 0 ≤ P o) (hprop : s.properties.lookup op.property = some prop)
    (hpr : s.profiles.lookup op.player = some pr)
    (htimely : op.timely s (g op.property) = true) :
    Tenured P t (Function.update g op.property (op.tenure s (g op.property))) := by
  have hdue := (ha.tenure_due_iff h hP hprop hpr).mpr htimely
  have hdraw : op.tenure s (g op.property) = ((g op.property).map fun tn =>
      if tn.owner = op.playerId s then { tn with paid := tn.paid + op.paid s } else tn) →
      ∀ tn, op.tenure s (g op.property) = some tn → g op.property = some tn ∨
        tn.since ≤ s.env.time ∧ (tn.paid = 0 ∨ t.Stamped op.property) := by
    intro htenure tn htn
    rw [htenure, Option.map_eq_some_iff] at htn
    obtain ⟨old, hold, rfl⟩ := htn
    by_cases hpays : op.pays s prop pr = true
    · have hsince := h.since _ _ hold
      split
      · exact .inr ⟨hsince, .inr (ha.stamped hpays)⟩
      · exact .inl hold
    · rw [ha.paid, if_neg hpays, add_zero, ite_self]
      exact .inl hold
  have hnew : ∀ tn, op.tenure s (g op.property) = some tn → g op.property = some tn ∨
      tn.since ≤ s.env.time ∧ (tn.paid = 0 ∨ t.Stamped op.property) := by
    cases op with
    | draw o p => exact hdraw rfl
    | sell o p => exact hdraw rfl
    | purchase o p =>
      intro tn htn
      rw [TradeOp.tenure] at htn
      split at htn
      · obtain rfl := Option.some.inj htn
        exact .inr ⟨le_rfl, .inl rfl⟩
      · exact .inl htn
  refine (h.ages ha.ages).update fun tn htn => (hnew tn htn).imp_right fun ⟨hsince, hpaid⟩ => ?_
  rw [ha.ages.env]
  exact ⟨hsince, hdue tn htn, hpaid⟩

end Step

/-- A trade is due exactly if it is timely. -/
theorem trade_step {P : OID → ℤ} {s t : Server} {g : Tenures} {op : TradeOp} {env : Env}
    (h : Tenured P s g) (hP : ∀ o, 0 ≤ P o)
    (hstep : MarketOp.step s (.trade op, env) = some t) :
    (Tenures.Due P (t, MarketOp.see s g (.trade op, env) t) ↔
        MarketOp.timely (s, g) (.trade op, env) = true) ∧
      (MarketOp.timely (s, g) (.trade op, env) = true →
        Tenured P t (MarketOp.see s g (.trade op, env) t)) := by
  rw [MarketOp.step] at hstep
  split at hstep
  case isFalse => cases hstep
  case isTrue hadmits =>
  simp only [MarketOp.admits, MarketOp.registered, Bool.and_eq_true, decide_eq_true_eq,
    List.all_eq_true] at hadmits
  obtain ⟨⟨htime, hfaults⟩, hregistered⟩ := hadmits
  have hbegin := h.begin hP htime
  have hrun : (op.run (s.begin env)).state? = some t := hstep
  obtain ⟨prop, pr, hprop, hpr⟩ := exists_of_run hrun
  have hset : pr.item.uniqueid.isSet = true := by
    have hpr' : s.profiles.lookup op.player = some pr := hpr
    rwa [hpr', Option.all_some] at hregistered
  have hfault : (s.begin env).database.fault ≠ .error [] := by
    have hhead : (s.begin env).database.fault = env.faults.headD .none := rfl
    rw [hhead]
    cases hf : env.faults with
    | nil => simp
    | cons f fs => exact hfaults f (by simp [hf])
  have ha : TradeAccounted (s.begin env) op prop pr t :=
    state_of_wp (wp_trade hprop hpr (hbegin.profits.keyed _ _ hprop) hset hfault) hrun
  have hiff := ha.tenure_due_iff hbegin hP hprop hpr
  refine ⟨⟨fun hdue => hiff.mp fun tn htn => ?_, fun htimely o tn htn => ?_⟩,
    fun htimely => ha.tenured hbegin hP hprop hpr htimely⟩
  · have hpaid := hdue op.property tn (by simpa [MarketOp.see] using htn)
    rwa [ha.ages.env] at hpaid
  · exact (ha.tenured hbegin hP hprop hpr htimely).due o tn htn

theorem reload_step {P : OID → ℤ} {s t : Server} {g : Tenures} {env : Env}
    (h : Tenured P s g) (hP : ∀ o, 0 ≤ P o) (hstep : MarketOp.step s (.reload, env) = some t) :
    Tenured P t g := by
  rw [MarketOp.step] at hstep
  split at hstep
  case isFalse => cases hstep
  case isTrue hadmits =>
  simp only [MarketOp.admits, Bool.and_eq_true, decide_eq_true_eq] at hadmits
  exact (h.begin hP hadmits.1.1).reloaded
    (state_of_wp PropertyManager.wp_loadAllFromDatabase hstep)

/-- In a run an owner is paid at most the profit of the whole days since the purchase exactly
if no draw pays for more days than those. -/
theorem owners_paid_iff (P : OID → ℤ) (hP : ∀ o, 0 ≤ P o) (s : Server)
    (ops : List (MarketOp × Env)) (hint : s.platform.int = id) (hprofits : s.ConstantProfits P) :
    AllSteps (watch MarketOp.step MarketOp.see) (fun _ _ w => Tenures.Due P w) (s, fun _ => none) ops ↔
      Meets (watch MarketOp.step MarketOp.see) (fun w i => MarketOp.timely w i = true)
        (s, fun _ => none) ops := by
  have hstart : Tenured P s fun _ => none :=
    ⟨hint, hprofits, by simp, by simp [Tenures.Due], by simp, by simp⟩
  refine allSteps_iff_meets (I := fun w => Tenured P w.1 w.2) (fun w i u h hu => ?_)
    (fun w i u h hu htimely => ?_) hstart
  all_goals
    obtain ⟨op, env⟩ := i
    obtain ⟨t, g⟩ := u
    obtain ⟨hstep, hg⟩ := watch_eq_some.mp hu
    obtain rfl : MarketOp.see w.1 w.2 (op, env) t = g := hg
    cases op
  case trade op => exact (trade_step h hP hstep).1
  case reload => exact iff_of_true (reload_step h hP hstep).due rfl
  case trade op => exact (trade_step h hP hstep).2 htimely
  case reload => exact reload_step h hP hstep

/-! ## A purchase and a draw -/

namespace Demo

/-- The profit of the property. -/
def houseProfit (o : OID) : ℤ := if o = house then 10 else 0

/-- The market, with the document of the property. -/
def ledger : Server :=
  { market with database := { docs := fun
      | .property => [Property.document house [] ⟨0, 0, 0⟩ 10 50 0]
      | _ => [] } }

end Demo

theorem Demo.houseProfit_nonneg (o : OID) : 0 ≤ Demo.houseProfit o := by
  rw [Demo.houseProfit]
  split <;> decide

/-- The profits in the ledger are those the property always pays. -/
theorem Demo.ledger_profits : Demo.ledger.ConstantProfits Demo.houseProfit := by
  have hcached : ∀ o prop, Demo.ledger.properties.lookup o = some prop →
      o = Demo.house ∧ prop = Demo.houseOnSale := by
    intro o prop h
    have hlookup : Demo.ledger.properties.lookup o =
        if o = Demo.house then some Demo.houseOnSale else none := Map.lookup_insert_ite ..
    rw [hlookup] at h
    split at h
    · exact ⟨‹_›, (Option.some.inj h).symm⟩
    · cases h
  refine ⟨fun o prop h => ?_, fun o prop h => ?_, fun o doc n hdoc hn => ?_⟩
  · obtain ⟨rfl, rfl⟩ := hcached o prop h
    rfl
  · obtain ⟨rfl, rfl⟩ := hcached o prop h
    rfl
  · have hid := Database.documentId_of_stored hdoc
    have hmem : doc ∈ [Property.document Demo.house [] ⟨0, 0, 0⟩ 10 50 0] := List.mem_of_find?_eq_some hdoc
    obtain rfl := List.mem_singleton.mp hmem
    obtain rfl : Demo.house = o := Option.some.inj hid
    have hprofit : readInt ((Property.document Demo.house [] ⟨0, 0, 0⟩ 10 50 0).field? .profit) =
        some 10 := by decide +kernel
    exact Option.some.inj (hn.symm.trans hprofit)

/-- A run whose steps all pass the test. -/
theorem meets_timely {w : Server × Tenures} {ops : List (MarketOp × Env)}
    (h : checkSteps (watch MarketOp.step MarketOp.see) MarketOp.timely w ops = true) :
    Meets (watch MarketOp.step MarketOp.see) (fun w i => MarketOp.timely w i = true) w ops :=
  meets_of_check (fun _ _ h => h) h

/-- A registered player purchases the property, draws from it, and sells it after a reload. -/
theorem owner_paid_what_is_due :
    AllSteps (watch MarketOp.step MarketOp.see) (fun _ _ w => Tenures.Due Demo.houseProfit w)
      (Demo.ledger, fun _ => none)
      [(.trade (.purchase Demo.house 0), Demo.env), (.trade (.draw Demo.house 0), Demo.nextDay),
        (.reload, Demo.nextDay), (.trade (.sell Demo.house 0), Demo.nextDay)] :=
  (owners_paid_iff Demo.houseProfit Demo.houseProfit_nonneg Demo.ledger _ rfl
    Demo.ledger_profits).mpr (meets_timely (by decide +kernel))

/-- Who purchases a property a day after it was created is paid for that day. -/
theorem owner_paid_for_earlier_day :
    ¬∀ (P : OID → ℤ) (s : Server) (ops : List (MarketOp × Env)), (∀ o, 0 ≤ P o) →
      s.platform.int = id → s.ConstantProfits P →
      AllSteps (watch MarketOp.step MarketOp.see) (fun _ _ w => Tenures.Due P w)
        (s, fun _ => none) ops := by
  intro hall
  have hmeets := (owners_paid_iff Demo.houseProfit Demo.houseProfit_nonneg Demo.ledger _ rfl
    Demo.ledger_profits).mp (hall Demo.houseProfit Demo.ledger
      ([(MarketOp.trade (.purchase Demo.house 0), Demo.nextDay)] ++
        [(MarketOp.trade (.draw Demo.house 0), Demo.nextDay)]) Demo.houseProfit_nonneg rfl
      Demo.ledger_profits)
  exact not_allSteps [(MarketOp.trade (.purchase Demo.house 0), Demo.nextDay)]
    (MarketOp.trade (.draw Demo.house 0), Demo.nextDay)
    (fun w _ => MarketOp.timely w (.trade (.draw Demo.house 0), Demo.nextDay))
    (fun _ _ h => h) (by decide +kernel) hmeets

end FreshCity
