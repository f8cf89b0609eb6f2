import FreshCity.Imperative.Rows
import FreshCity.Teleports

/-!
# Lists in dialogs

Teams, gang zones and waypoints are listed with a row for each: its id, a tab and its name. A client
answers with the row that was chosen, and the handler reads the id from the beginning of the row.
-/
namespace FreshCity
open Imperative Prog

/-! ## Writing ids and reading them -/

/-- A digit of an object id. -/
def hexDigit (d : ℕ) : UInt8 := UInt8.ofNat (if d < 10 then 48 + d else 87 + d)

theorem hexValue_hexDigit : ∀ d < 16, hexValue (hexDigit d) = some d := by decide

theorem hexDigit_plain : ∀ d < 16, hexDigit d ≠ 10 ∧ hexDigit d ≠ 0 := by decide

namespace OID

theorem str_eq (o : OID) : o.str = (Rows.lastDigits 16 24 o.data.toNat).map hexDigit := by
  rw [str, Rows.lastDigits, List.map_map]
  rfl

theorem length_str (o : OID) : o.str.length = 24 := by simp [str]

/-- An id is read back from its text. -/
theorem ofText_str (o : OID) : ofText o.str = some o := by
  have hdigits : o.str.mapM hexValue = some (Rows.lastDigits 16 24 o.data.toNat) := by
    rw [str_eq]
    exact Rows.mapM_map_of_inverse fun d hd =>
      hexValue_hexDigit d (Rows.lt_of_mem_lastDigits (by decide) hd)
  have hvalue : (Rows.lastDigits 16 24 o.data.toNat).foldl (fun n d => 16 * n + d) 0 =
      o.data.toNat := by
    change Rows.value 16 _ = _
    rw [Rows.value_lastDigits]
    exact Nat.mod_eq_of_lt o.data.isLt
  rw [ofText, if_neg (by simp [length_str]), hdigits, Option.map_some, hvalue]
  simp

end OID

/-- The digits of a number. -/
def decimalDigits (n : ℕ) : Text :=
  if n = 0 then [48] else (Nat.digits 10 n).reverse.map fun d => UInt8.ofNat (48 + d)

/-- What `<<` prints of an `int`. -/
def decimal (z : ℤ) : Text :=
  if z < 0 then 45 :: decimalDigits z.natAbs else decimalDigits z.natAbs

section Decimal
variable {n : ℕ} {z : ℤ} {rest : Text}

theorem isDigit_of_lt : ∀ d < 10, isDigit (UInt8.ofNat (48 + d)) = true ∧
    (UInt8.ofNat (48 + d)).toNat - 48 = d := by decide

theorem isDigit_decimalDigits : ∀ d ∈ decimalDigits n, isDigit d = true := by
  intro d hd
  rw [decimalDigits] at hd
  split at hd
  · obtain rfl := List.mem_singleton.mp hd
    rfl
  · obtain ⟨k, hk, rfl⟩ := List.mem_map.mp hd
    exact (isDigit_of_lt k (Nat.digits_lt_base (by decide) (List.mem_reverse.mp hk))).1

theorem decimalDigits_ne_nil : decimalDigits n ≠ [] := by
  rw [decimalDigits]
  split
  case isTrue => simp
  case isFalse hn => simpa [Nat.digits_eq_nil_iff_eq_zero] using hn

theorem digitsValue_decimalDigits : digitsValue (decimalDigits n) = n := by
  rw [decimalDigits]
  split
  case isTrue hn =>
    subst hn
    rfl
  case isFalse =>
    have hread : ∀ l : List ℕ, (∀ d ∈ l, d < 10) →
        digitsValue (l.map fun d => UInt8.ofNat (48 + d)) = Rows.value 10 l := by
      intro l hl
      rw [digitsValue, List.foldl_map, Rows.value]
      refine List.foldl_ext _ _ _ fun n d hd => ?_
      rw [(isDigit_of_lt d (hl d hd)).2]
    rw [hread _ fun d hd => Nat.digits_lt_base (by decide) (List.mem_reverse.mp hd),
      Rows.value_reverse, Nat.ofDigits_digits]

theorem takeWhile_decimalDigits (h : ∀ d ∈ rest.head?, isDigit d = false) :
    (decimalDigits n ++ rest).takeWhile isDigit = decimalDigits n := by
  have hrest : rest.takeWhile isDigit = [] := by
    cases rest with
    | nil => rfl
    | cons d rest => exact List.takeWhile_cons_of_neg (by simp [h d rfl])
  rw [List.takeWhile_append_of_pos isDigit_decimalDigits, hrest, List.append_nil]

/-- A digit is no blank and no sign. -/
theorem not_sign_of_isDigit {d : UInt8} (h : isDigit d = true) :
    isSpace d = false ∧ d ≠ 45 ∧ d ≠ 43 := by
  simp only [isDigit, Bool.and_eq_true, decide_eq_true_eq, UInt8.le_iff_toNat_le] at h
  simp only [isSpace, Bool.or_eq_false_iff, Bool.and_eq_false_iff, decide_eq_false_iff_not,
    UInt8.le_iff_toNat_le, ne_eq, ← UInt8.toNat_inj]
  have hlow : 48 ≤ d.toNat := h.1
  refine ⟨⟨?_, .inr ?_⟩, ?_, ?_⟩ <;> simp <;> omega

theorem readSign_digits {d : UInt8} {t : Text} (h : isDigit d = true) :
    readSign ((d :: t).dropWhile isSpace) = (1, d :: t) := by
  obtain ⟨hspace, hminus, hplus⟩ := not_sign_of_isDigit h
  rw [List.dropWhile_cons_of_neg (by simp [hspace])]
  unfold readSign
  split
  · simp_all
  · simp_all
  · rfl

theorem scanInt_of_readSign {t : Text} {sign : ℤ} (h : ∀ d ∈ rest.head?, isDigit d = false)
    (ht : readSign (t.dropWhile isSpace) = (sign, decimalDigits n ++ rest)) :
    scanInt t = some (int32 (sign * n)) := by
  rw [scanInt, ht]
  simp only [takeWhile_decimalDigits h, digitsValue_decimalDigits]
  rw [if_neg (by simpa using decimalDigits_ne_nil)]

/-- An `int` is read back from its print, if no digit follows. -/
theorem scanInt_decimal (h : ∀ d ∈ rest.head?, isDigit d = false) :
    scanInt (decimal z ++ rest) = some (int32 z) := by
  rw [decimal]
  split
  case isTrue hneg =>
    have hsign : readSign ((45 :: (decimalDigits z.natAbs ++ rest)).dropWhile isSpace) =
        (-1, decimalDigits z.natAbs ++ rest) := rfl
    have hz : -1 * (z.natAbs : ℤ) = z := by omega
    rw [List.cons_append, scanInt_of_readSign h hsign, hz]
  case isFalse hpos =>
    obtain ⟨d, t, ht⟩ := List.exists_cons_of_ne_nil (decimalDigits_ne_nil (n := z.natAbs))
    have hd : isDigit d = true := isDigit_decimalDigits d (ht ▸ List.mem_cons_self)
    have hsign : readSign ((decimalDigits z.natAbs ++ rest).dropWhile isSpace) =
        (1, decimalDigits z.natAbs ++ rest) := by
      rw [ht]
      exact readSign_digits hd
    have hz : 1 * (z.natAbs : ℤ) = z := by omega
    rw [scanInt_of_readSign h hsign, hz]

end Decimal

/-! ## Lists -/

namespace Message

/-- The entries of a list: what is printed of an id, and a name. -/
def entries : Message → List (Text × Text)
  | teamList teams => teams.map fun e => (e.1.str, e.2)
  | zoneList zones => zones.map fun e => (decimal e.1, e.2)
  | waypointList points => points.map fun e => (e.1.str, e.2)
  | _ => []

/-- The text of a list. -/
def listText (m : Message) : Text := m.entries.flatMap fun e => e.1 ++ [9] ++ e.2 ++ [10]

/-- The rows a client is shown: a line break ends a row, and the text ends before its terminator. -/
def shownRows (m : Message) : List Text := Rows.read 10 0 m.listText

end Message

/-- What a row of a list stands for. -/
inductive Choice where
  | team (id : OID)
  | spawn (zoneid : ℤ)
  | remove (zoneid : ℤ)
  | waypoint (id : OID)

namespace Choice

/-- The choices of a list in a dialog, in the order of its rows. The id of a zone is an `int`. -/
def ofList : DialogId → Message → List Choice
  | .teamSelect, .teamList teams => teams.map fun e => team e.1
  | .gangZoneChooseToSpawn, .zoneList zones => zones.map fun e => spawn (int32 e.1)
  | .gangZoneRemove, .zoneList zones => zones.map fun e => remove (int32 e.1)
  | .teleportNearby, .waypointList points => points.map fun e => waypoint e.1
  | _, _ => []

/-- A player changes to a team. -/
def enterTeam (p : ℤ) (id : OID) : Game Unit := do
  let pr ← Profile.ref p
  when (pr.team ≠ id) do
    when pr.team.isSet do
      let _ ← teamMgr pr.team
      Team.quit pr.team p
    let _ ← teamMgr id
    Team.join id p

/-- What is done with a choice. -/
def perform (p : ℤ) : Choice → Game Unit
  | team id => do
    enterTeam p id
    showDialog p .roleSelect .roleList
  | spawn zoneid => do
    let zone ← gangZoneMgr zoneid
    let sp ← Waypoint.ofId zone.spawnpoint
    sp.performTeleport p
  | remove zoneid => do
    let _ ← gangZoneMgr zoneid
    GangZoneItem.destroy zoneid
    GangZoneManager.remove zoneid
    sendClientMessage p .zoneRemoved
  | waypoint id => do
    let target ← Waypoint.ofId id
    target.performTeleport p

/-- A player chooses, and reads of what goes wrong. -/
def answer (p : ℤ) (c : Choice) : Game Unit := reported p .dialogResponse do
  let _ ← profileMgr p
  c.perform p

end Choice

section Rows
variable {p listitem : ℤ} {o : OID} {z : ℤ} {name : Text} {d : DialogId} {m : Message} {k : ℕ}
  {c : Choice}

/-- The entry at a place is read from a row by the handler of its list. -/
def Reads (p listitem : ℤ) (d : DialogId) (row : Text) (c : Choice) : Prop :=
  Dialog.callback p listitem row d = c.perform p

theorem stringOf_row (env : Env) : env.stringOf (o.str ++ 9 :: name) 24 = o.str := by
  have hlength : 24 - (o.str ++ 9 :: name).length = 0 := by simp [OID.length_str]
  rw [Env.stringOf, hlength, List.take_append_of_le_length (by simp [OID.length_str]),
    List.take_of_length_le (by simp [OID.length_str])]
  simp

theorem changeTeam_str : Dialog.changeTeam p o.str = Choice.enterTeam p o := by
  simp only [Dialog.changeTeam, OID.ofText_str, orRaise_some]
  rfl

theorem reads_team : Reads p listitem .teamSelect (o.str ++ 9 :: name) (.team o) := by
  simp only [Reads, Dialog.callback, Dialog.teamSelect, stringOf_row, changeTeam_str]
  rfl

theorem reads_waypoint : Reads p listitem .teleportNearby (o.str ++ 9 :: name) (.waypoint o) := by
  simp only [Reads, Dialog.callback, Dialog.teleportNearby, stringOf_row, OID.ofText_str, orRaise_some]
  rfl

theorem scanZone_row : scanZone (decimal z ++ 9 :: name) = pure (int32 z) := by
  have hscan : scanInt (decimal z ++ 9 :: name) = some (int32 z) :=
    scanInt_decimal (by simp [isDigit])
  simp only [scanZone, hscan, Option.getD_some]
  rfl

theorem reads_spawn :
    Reads p listitem .gangZoneChooseToSpawn (decimal z ++ 9 :: name) (.spawn (int32 z)) := by
  simp only [Reads, Dialog.callback, Dialog.gangZoneChooseToSpawn, scanZone_row]
  rfl

theorem reads_remove :
    Reads p listitem .gangZoneRemove (decimal z ++ 9 :: name) (.remove (int32 z)) := by
  simp only [Reads, Dialog.callback, Dialog.gangZoneRemove, scanZone_row]
  rfl

/-- Every choice of a list has an entry, which is read as this choice. -/
theorem reads_entry (h : (Choice.ofList d m)[k]? = some c) : ∃ e, m.entries[k]? = some e ∧
    Reads p listitem d (e.1 ++ 9 :: e.2) c := by
  unfold Choice.ofList at h
  split at h
  case h_5 => cases h
  all_goals
    rw [List.getElem?_map, Option.map_eq_some_iff] at h
    obtain ⟨e, he, rfl⟩ := h
    rw [Message.entries, List.getElem?_map, he]
    refine ⟨_, rfl, ?_⟩
  · exact reads_team
  · exact reads_spawn
  · exact reads_remove
  · exact reads_waypoint

/-! ## What a client is shown -/

theorem listText_eq : m.listText = Rows.render 10 (m.entries.map fun e => e.1 ++ 9 :: e.2) := by
  simp [Message.listText, Rows.render, List.flatMap_map]

theorem str_plain : 10 ∉ o.str ∧ 0 ∉ o.str := by
  rw [OID.str_eq, List.mem_map, List.mem_map]
  refine ⟨fun hmem => ?_, fun hmem => ?_⟩
  all_goals
    obtain ⟨d, hd, heq⟩ := hmem
    have hplain := hexDigit_plain d (Rows.lt_of_mem_lastDigits (by decide) hd)
  · exact hplain.1 heq
  · exact hplain.2 heq

theorem decimal_plain : 10 ∉ decimal z ∧ 0 ∉ decimal z := by
  have hdigits : ∀ b : UInt8, isDigit b = false → b ∉ decimalDigits z.natAbs := by
    intro b hb hmem
    rw [isDigit_decimalDigits b hmem] at hb
    cases hb
  rw [decimal]
  split
  · exact ⟨by simp [hdigits 10 rfl], by simp [hdigits 0 rfl]⟩
  · exact ⟨hdigits 10 rfl, hdigits 0 rfl⟩

/-- No id has a line break or a terminator in its print. -/
theorem entry_plain : ∀ e ∈ m.entries, 10 ∉ e.1 ∧ 0 ∉ e.1 := by
  intro e he
  cases m
  case teamList | waypointList =>
    obtain ⟨x, -, rfl⟩ := List.mem_map.mp he
    exact str_plain
  case zoneList =>
    obtain ⟨x, -, rfl⟩ := List.mem_map.mp he
    exact decimal_plain
  all_goals cases he

/-- The row of an entry is shown at its place, if no name up to there has a line break or a
terminator. -/
theorem shownRows_getElem? {e : Text × Text} (he : m.entries[k]? = some e)
    (hnames : ∀ e ∈ m.entries.take (k + 1), 10 ∉ e.2 ∧ 0 ∉ e.2) :
    m.shownRows[k]? = some (e.1 ++ 9 :: e.2) := by
  have hplain : ∀ r ∈ (m.entries.map fun e => e.1 ++ 9 :: e.2).take (k + 1), 10 ∉ r ∧ 0 ∉ r := by
    intro r hr
    rw [← List.map_take] at hr
    obtain ⟨e, hmem, rfl⟩ := List.mem_map.mp hr
    have hid := entry_plain e (List.mem_of_mem_take hmem)
    have hname := hnames e hmem
    simp [hid, hname]
  rw [Message.shownRows, listText_eq]
  exact Rows.read_render (by rw [List.getElem?_map, he]; rfl) (fun r hr => (hplain r hr).1)
    (fun r hr => (hplain r hr).2) (by decide)

theorem shownRow_waypoint {points : List (OID × Text)} {point : OID × Text} {row : Text}
    (hpoint : points[k]? = some point) (hnames : ∀ e ∈ points.take (k + 1), 10 ∉ e.2 ∧ 0 ∉ e.2)
    (hrow : (Message.waypointList points).shownRows[k]? = some row) :
    row = point.1.str ++ 9 :: point.2 := by
  have hentry : (Message.waypointList points).entries[k]? = some (point.1.str, point.2) := by
    rw [Message.entries, List.getElem?_map, hpoint]
    rfl
  have hshown := shownRows_getElem? hentry fun e he => by
    rw [Message.entries, ← List.map_take] at he
    obtain ⟨point, hpoint, rfl⟩ := List.mem_map.mp he
    exact hnames point hpoint
  exact Option.some.inj (hrow.symm.trans hshown)

end Rows

/-! ## Choosing a row -/

theorem discard_eq {x : Game Unit} {b : Bool} {s : Server} :
    (discard (do x; pure b) s).state? = (x s).state? := by
  simp only [discard, bind_apply]
  cases x s <;> rfl

/-- The response that gives a row of a list is handled as the choice the row stands for. -/
theorem step_choice {d : DialogId} {c : Choice} {p n listitem : ℤ} {row : Text} {s : Server} {env : Env}
    (hdialog : Event.dialog n = some d) (hrow : Reads p listitem d row c) :
    s.step (.dialogResponse p n 1 listitem row, env) = (c.answer p (s.begin env)).state? := by
  have hfilter : (DialogId.ofNumber n).filter DialogId.isRegistered = some d := hdialog
  have hexec : dialogMgrExec p true n listitem row =
      (do let _ ← profileMgr p; c.perform p) := by
    rw [dialogMgrExec, hfilter, ← hrow]
    simp only [Bool.or_true, when_true]
    rfl
  rw [Server.step, Event.run, onDialogResponse]
  simp only [decide_true, hexec]
  exact discard_eq

/-- Whatever has happened since a list was shown: who answers with the row of an entry gets what the
entry stands for, if no name up to there has a line break or a terminator. -/
theorem rows_choose (m : Message) (d : DialogId) (k : ℕ) (c : Choice) (p n listitem : ℤ)
    (hdialog : Event.dialog n = some d) (hchoice : (Choice.ofList d m)[k]? = some c)
    (hnames : ∀ e ∈ m.entries.take (k + 1), 10 ∉ e.2 ∧ 0 ∉ e.2) :
    ∃ row, m.shownRows[k]? = some row ∧ ∀ (u : Server) (env : Env),
      u.step (.dialogResponse p n 1 listitem row, env) = (c.answer p (u.begin env)).state? := by
  obtain ⟨e, he, hreads⟩ : ∃ e, m.entries[k]? = some e ∧
      Reads p listitem d (e.1 ++ 9 :: e.2) c := reads_entry hchoice
  exact ⟨_, shownRows_getElem? he hnames, fun u env => step_choice hdialog hreads⟩

/-- The second of two zones is chosen. -/
theorem rows_choose_second : ∃ row,
    (Message.zoneList [(3, ascii "dock"), (-12, ascii "park")]).shownRows[1]? = some row ∧
    ∀ (u : Server) (env : Env), u.step (.dialogResponse 0 22 1 1 row, env) =
      ((Choice.remove (-12)).answer 0 (u.begin env)).state? :=
  rows_choose (.zoneList [(3, ascii "dock"), (-12, ascii "park")]) .gangZoneRemove 1 (.remove (-12))
    0 22 1 rfl rfl (by decide)

/-! ## The waypoints nearby -/

namespace Server
variable {s t u v : Server} {p q n response listitem : ℤ} {text row : Text} {env env' : Env}
  {points : List (OID × Text)} {doc : Document} {id : OID} {place : Coordinate5D}

/-- What the list of waypoints shows of a document. -/
def nearbyEntry (doc : Document) : Option (OID × Text) := do
  let id ← documentId doc
  let title ← (doc.field? .title).bind Bson.asString
  pure (id, title)

theorem documentId_of_nearbyEntry {e : OID × Text} (h : nearbyEntry doc = some e) :
    documentId doc = some e.1 := by
  simp only [nearbyEntry, Option.pure_def, Option.bind_eq_bind, Option.bind_eq_some_iff] at h
  obtain ⟨id, hid, title, -, heq⟩ := h
  rw [← Option.some.inj heq]
  exact hid

/-- The waypoint documents with which `$near` answers at a player's place, the first sixteen. -/
def nearby (s : Server) (env : Env) (p : ℤ) : List Document :=
  (s.platform.near (env.pos p).x (env.pos p).y (s.database.docs .waypoint)).take 16

/-- The only lists of waypoints that were shown are of some documents. -/
def ShowsOnly (docs : List Document) (t : Server) : Prop :=
  ∀ q points, .showDialog q .teleportNearby (.waypointList points) ∈ t.trace →
    docs.mapM nearbyEntry = some points

theorem ShowsOnly.record {docs : List Document} {x : Effect} (h : s.ShowsOnly docs)
    (hx : ∀ q points, x ≠ .showDialog q .teleportNearby (.waypointList points)) :
    ShowsOnly docs { s with trace := x :: s.trace } := by
  rintro q points (_ | ⟨_, hmem⟩)
  · exact absurd rfl (hx q points)
  · exact h q points hmem

theorem wp_teleportViewNearby (h : s.trace = []) : wp (Dialog.teleportViewNearby p)
    (fun _ t => t.ShowsOnly (s.nearby s.env p)) (fun _ t => t.ShowsOnly (s.nearby s.env p)) s := by
  have hnone : s.ShowsOnly (s.nearby s.env p) := by simp [ShowsOnly, h]
  have hissued : (s.issued (.queryAll .waypoint)).ShowsOnly (s.nearby s.env p) :=
    hnone.record (by simp)
  simp only [Dialog.teleportViewNearby, configCollection, showDialog, emit, wp_bind, wp_gets,
    wp_raiseIf, wp_issue, wp_orRaise, wp_modify]
  split
  case isTrue => exact hnone
  case isFalse =>
    refine ⟨fun _ _ => hissued, fun _ => ⟨fun shown hshown => ?_, fun _ => hissued⟩⟩
    split
    case isTrue => exact hissued
    case isFalse =>
      rintro q points (_ | ⟨_, hmem⟩)
      · exact hshown
      · exact hissued q points hmem

theorem step_nearby (hdialog : Event.dialog n = some .teleportMain)
    (h : s.step (.dialogResponse p n response 2 text, env) = some t) :
    t.ShowsOnly (s.nearby env p) := by
  refine of_step h ?_
  have hnone : (s.begin env).ShowsOnly (s.nearby env p) := by simp [ShowsOnly, begin]
  have hfilter : (DialogId.ofNumber n).filter DialogId.isRegistered = some .teleportMain := hdialog
  simp only [Event.run, discard, onDialogResponse, reported, wp_bind, wp_handle]
  refine wp_mono (Q := fun _ t => t.ShowsOnly (s.nearby env p))
    (E := fun _ t => t.ShowsOnly (s.nearby env p)) ?_ (fun _ _ ht => ht)
    fun _ t ht => ht.record (by simp)
  simp only [dialogMgrExec, hfilter, profileMgr, getItem, wp_bind, wp_orRaise, wp_when, wp_gets]
  refine ⟨fun d hd => ?_, fun hnone => by cases hnone⟩
  obtain rfl := Option.some.inj hd
  split
  case isTrue =>
    refine ⟨fun _ _ => ?_, fun _ => hnone⟩
    simp only [Dialog.callback, Dialog.teleportMain]
    have hnearby : (s.begin env).nearby env p = s.nearby env p := rfl
    rw [← hnearby]
    exact wp_teleportViewNearby rfl
  case isFalse => exact hnone

theorem mem_of_nearby {k : ℕ} (h : (s.nearby env p)[k]? = some doc) :
    doc ∈ s.database.docs .waypoint := by
  exact s.platform.near_subset _ _ _ (List.mem_of_mem_take (List.mem_of_getElem? h))

/-- Who chooses a waypoint that is there is taken to its place, if the database answers. -/
theorem natives_waypoint {l : List Native} (hdialog : Event.dialog n = some .teleportNearby)
    (hrow : Reads p listitem .teleportNearby row (.waypoint id))
    (hdoc : (s.database.docs .waypoint).find? (byId id) = some doc)
    (hid : documentId doc = some id) (hdescribes : Waypoint.Describes doc place)
    (hstay : Fault.vanished ∉ env.faults)
    (hl : l = if s.answers env p (.dialogResponse p n 1 listitem row) = true then
      place.arrival env p else [])
    (h : s.step (.dialogResponse p n 1 listitem row, env) = some t) : t.natives = l := by
  rw [step_choice hdialog hrow] at h
  refine state_of_wp (P := fun t => t.natives = l) ?_ h
  refine wp_mono (wp_reported_natives ?_) (fun _ _ ht => ht) (fun _ _ hf => hf.elim)
  refine wp_profileMgr_natives hl fun pr hpr => ?_
  have hfetches : (s.begin env).Fetches (Waypoint.ofId id) place :=
    fetches_of_find hdoc hid hdescribes hstay
  exact wp_goTo_begin hfetches hpr rfl hl

end Server

/-- A player looks at the waypoints nearby and somebody chooses from this list later on, when
anything may have happened but that documents were deleted: the row at a place leads where the
waypoint is that `$near` answered with at that place when the list was made. -/
theorem nearby_leads (s t u v : Server) (p q n n' response listitem : ℤ) (text row : Text)
    (env env' : Env) (is : List (Event × Env)) (points : List (OID × Text)) (k : ℕ)
    (hdialog : Event.dialog n = some .teleportMain)
    (hlook : s.step (.dialogResponse p n response 2 text, env) = some t)
    (hshown : .showDialog p .teleportNearby (.waypointList points) ∈ t.trace)
    (hids : Server.UniqueIds (s.database.docs .waypoint)) (hk : k < points.length)
    (hnames : ∀ e ∈ points.take (k + 1), 10 ∉ e.2 ∧ 0 ∉ e.2)
    (hstay : ∀ i ∈ (Event.dialogResponse p n response 2 text, env) :: is,
      Fault.vanished ∉ i.2.faults)
    (hrun : Run.final Server.step t is = some u)
    (hrow : (Message.waypointList points).shownRows[k]? = some row)
    (hdialog' : Event.dialog n' = some .teleportNearby) (hstay' : Fault.vanished ∉ env'.faults)
    (hchoose : u.step (.dialogResponse q n' 1 listitem row, env') = some v) :
    ∃ doc, (s.nearby env p)[k]? = some doc ∧ ∀ place, Waypoint.Describes doc place →
      v.natives = if u.answers env' q (.dialogResponse q n' 1 listitem row) = true then
        place.arrival env' q else [] := by
  have hmapM := Server.step_nearby hdialog hlook p points hshown
  have hpoint : points[k]? = some points[k] := List.getElem?_eq_getElem hk
  obtain ⟨doc, hdoc, hentry⟩ := Rows.getElem?_of_mapM hmapM hpoint
  have hid : documentId doc = some points[k].1 := Server.documentId_of_nearbyEntry hentry
  have hread : row = points[k].1.str ++ 9 :: points[k].2 := shownRow_waypoint hpoint hnames hrow
  rw [List.forall_mem_cons] at hstay
  have hlater := ((Server.step_documentsStay hstay.1 hlook).trans
    (Server.run_documentsStay hstay.2 hrun)).whole .waypoint (by decide) (by decide) (by decide)
  obtain ⟨later, hlater⟩ := hlater
  have hfound : (u.database.docs .waypoint).find? (byId points[k].1) = some doc := by
    rw [← hlater]
    exact Server.find?_byId hids (Server.mem_of_nearby hdoc) hid
  refine ⟨doc, hdoc, fun place hdescribes => ?_⟩
  exact Server.natives_waypoint hdialog' (hread ▸ reads_waypoint) hfound hid hdescribes hstay' rfl
    hchoose

namespace Demo

/-- The next object ids begin elsewhere. -/
def numbering (n : BitVec 96) (hn : OID.isSet ⟨n⟩) : Env := { env with genoid := fun _ => ⟨⟨n⟩, hn⟩ }

/-- The waypoints an effect lists for player 0. -/
def listing : Effect → Option (List (OID × Text))
  | .showDialog p .teleportNearby (.waypointList points) => if p = 0 then some points else none
  | _ => none

/-- The waypoints that were listed. -/
def listed (t : Server) : List (OID × Text) := (t.trace.findSome? listing).getD []

theorem showDialog_of_listed {t : Server} (h : listed t ≠ []) :
    .showDialog 0 .teleportNearby (.waypointList (listed t)) ∈ t.trace := by
  rw [listed] at h ⊢
  cases hfound : t.trace.findSome? listing with
  | none => simp [hfound] at h
  | some points =>
    obtain ⟨x, hx, hlisting⟩ := List.exists_of_findSome?_eq_some hfound
    unfold listing at hlisting
    split at hlisting
    case h_1 =>
      obtain ⟨rfl, hpoints⟩ := Option.ite_none_right_eq_some.mp hlisting
      obtain rfl := Option.some.inj hpoints
      exact hx
    case h_2 => cases hlisting

end Demo

/-- Somebody else chooses the second row, after a third waypoint was created where it was looked
from. -/
theorem nearby_leads_home : ∃ (u v : Server) (row : Text),
    u.step (.dialogResponse 1 17 1 1 row, Demo.env) = some v ∧
    v.natives = (Profile.detailedPos Demo.abroad 0).arrival Demo.env 1 := by
  have hrun : ((Run.final Server.step Demo.initial (Demo.quietly [.gameModeInit, .playerConnect 0,
      .dialogResponse 0 27 1 0 (ascii "password")])).bind fun r =>
      (r.step (.dialogResponse 0 15 1 0 (ascii "home"), Demo.abroad)).bind fun r =>
      (r.step (.dialogResponse 0 15 1 0 (ascii "work"), Demo.numbering 2 rfl)).bind fun s =>
      (s.step (.dialogResponse 0 14 1 2 [], Demo.env)).bind fun t =>
      (Message.shownRows (.waypointList (Demo.listed t)))[1]?.bind fun row =>
      (Run.final Server.step t [(.playerConnect 1, Demo.env),
        (.dialogResponse 0 15 1 0 (ascii "shop"), Demo.numbering 3 rfl)]).bind fun u =>
      (u.step (.dialogResponse 1 17 1 1 row, Demo.env)).map fun _ =>
        decide (((s.nearby Demo.env 0)[1]?.bind Waypoint.decode) =
          some (Profile.detailedPos Demo.abroad 0)) &&
        decide ((Documents.ids s.database.docs .waypoint).Nodup) &&
        decide ((Demo.listed t).length = 2) &&
        decide (∀ e ∈ (Demo.listed t).take 2, 10 ∉ e.2 ∧ 0 ∉ e.2) &&
        u.answers Demo.env 1 (.dialogResponse 1 17 1 1 row)) = some true := by
    decide +kernel
  simp only [Option.bind_eq_some_iff, Option.map_eq_some_iff, Bool.and_eq_true,
    decide_eq_true_eq] at hrun
  obtain ⟨_, _, _, _, s, _, t, ht, row, hrow, u, hu, v, hv,
    ⟨⟨⟨⟨home, hnearby, hhome⟩, hids⟩, hlength⟩, hnames⟩, hanswers⟩ := hrun
  refine ⟨u, v, row, hv, ?_⟩
  have hlisted : Demo.listed t ≠ [] := by
    intro hnil
    simp [hnil] at hlength
  obtain ⟨doc, hdoc, hleads⟩ := nearby_leads s t u v 0 1 14 17 1 1 [] row Demo.env Demo.env _
    (Demo.listed t) 1 rfl ht (Demo.showDialog_of_listed hlisted) (Server.uniqueIds_of_nodup hids)
    (by omega) hnames (by simp [Demo.numbering, Demo.env]) hu hrow rfl (by simp [Demo.env]) hv
  obtain rfl := Option.some.inj (hnearby.symm.trans hdoc)
  rw [hleads _ (Waypoint.describes_of_decode hhome), if_pos hanswers]

end FreshCity
