import VaultGovernance.Proofs.Change.Run
import VaultGovernance.Proofs.Maps

/-!
# VaultGovernance.Proofs.SettingsMap

The settings document as a finite map.  The first write starts from the
defaults, an update overrides its own keys, a removal takes out its key and
seeding adds the defaults that are missing (`Settings.Write.on`).

The document is kept as a text.  An update with a value that has none fails and
leaves everything as it was (`Settings.Write.isStorable`).

A document that is written is compared with the kept one first, as values, and
for values `1`, `1.0` and `true` are alike.  A write whose document is alike and
yet another one is lost (`Settings.Write.IsLost`).  So the stored document has
the keys of the map always, and its values as long as no write is lost
(`settings_document_refines_map`).
-/

namespace VaultGovernance

open VaultGovernance.Action

namespace Settings

/-! ## The map -/

/-- A settings document as a function from keys. -/
abbrev Map := String → Option Json

/-- The defaults as a map. -/
def defaultMap : Map := fun key => OrderedMap.get? defaults key

/-- The stored document as a map; nothing where there is no row. -/
def mapIn (s : Store) : Option Map := s.settings.map fun row key => row.data.entries.get? key

/-- The map from which a write starts: the defaults where there is no row. -/
def start (m : Option Map) : Map := m.getD defaultMap

/-- The value at a key, where there is a row and it has the key. -/
def valueAt (m : Option Map) (key : String) : Option Json := m.bind fun d => d key

/-- A map with the values of an update, which count at their keys alone. -/
def Map.overridden (m : Map) (values : OrderedMap Json) : Map := fun key =>
  ((OrderedMap.ofEntries values).get? key).or (m key)

/-- Two maps have the same keys, with values that are equal inside a container. -/
def Map.Alike (m m' : Map) : Prop :=
  ∀ key, Option.Rel (fun x y => Json.sameInside x y = true) (m key) (m' key)

/-- The first map is kept where the second was to be. -/
def Map.StandsFor (d wanted : Map) : Prop :=
  ∀ key, Option.Rel Json.StandsFor (d key) (wanted key)

open Classical in
/-- What is kept after a map is written over another: alike maps are not
written. -/
noncomputable def Map.written (d wanted : Map) : Map := if d.Alike wanted then d else wanted

/-- The operations that write the settings. -/
inductive Write where
  | ensure
  | update (values : OrderedMap Json)
  | set (key : String) (value : Json)
  | delete (key : String)
  | seed

namespace Write

/-- A write as an operation of the service. -/
def operation : Write → Operation
  | ensure => .ensureSettings
  | update values => .updateSettings values
  | set key value => .setSetting key value
  | delete key => .deleteSetting key
  | seed => .seedSettings

/-- What a write makes of the map.  Removing a key creates no row. -/
def on : Write → Option Map → Option Map
  | ensure, m => some (start m)
  | update values, m => some ((start m).overridden values)
  | set key value, m => some (Function.update (start m) key (some value))
  | delete key, m => m.map fun d => Function.update d key none
  | seed, m => some fun key => (start m key).or (defaultMap key)

/-- The values of an update. -/
def values? : Write → Option (OrderedMap Json)
  | update values => some values
  | set key value => some [(key, value)]
  | _ => none

/-- Whether the values of a write, if it has any, can be kept as a text. -/
def isStorable (write : Write) : Bool := (write.values?.getD []).all fun e => e.2.canShow

/-- An update asks for a map that is alike the kept one, and yet another one. -/
def IsLost (write : Write) (m : Option Map) : Prop :=
  ∃ values, write.values? = some values ∧ (start m).Alike ((start m).overridden values) ∧
    start m ≠ (start m).overridden values

end Write

/-- What writes make of the map, from no row on.  Those that cannot be stored make nothing of
it. -/
def intended (writes : List Write) : Option Map :=
  (writes.filter Write.isStorable).foldl (fun m write => write.on m) none

/-- Writes at their times, as calls. -/
def calls (writes : List (Context × Write)) : List Call :=
  writes.map fun x => ⟨x.1, x.2.operation⟩

/-! ## Rows -/

/-- The data of a row is an object in which no key comes twice. -/
structure Keyed (row : SettingsRow) : Prop where
  object : row.data = .obj row.data.entries
  distinct : row.data.entries.keys.Nodup

/-- The row as a map. -/
def rowMap (row : SettingsRow) : Map := fun key => row.data.entries.get? key

/-- A row that is made from the defaults. -/
def defaultRow (time : Timestamp) : SettingsRow := ⟨.obj defaults, time, none⟩

theorem nodup_keys_defaults : (OrderedMap.keys defaults).Nodup := by decide +kernel

theorem keyed_defaultRow (time : Timestamp) : Keyed (defaultRow time) :=
  ⟨rfl, nodup_keys_defaults⟩

/-- A row after a document is written into it. -/
def overwritten (row : SettingsRow) (document : OrderedMap Json) (time : Timestamp) : SettingsRow :=
  if Json.same row.data (.obj document) then row
  else { row with data := .obj document, updatedAt := some time }

variable {row : SettingsRow} {document : OrderedMap Json} {time : Timestamp}

theorem same_document_iff (hrow : Keyed row) (hdocument : document.keys.Nodup) :
    Json.same row.data (.obj document) = true ↔ (rowMap row).Alike document.get? := by
  rw [hrow.object]
  exact Json.same_obj_iff hrow.distinct hdocument

/-- Writing a document into a row is writing its map. -/
theorem rowMap_overwritten (hrow : Keyed row) (hdocument : document.keys.Nodup) :
    rowMap (overwritten row document time) = (rowMap row).written document.get? := by
  rw [overwritten, Map.written]
  by_cases h : (rowMap row).Alike document.get?
  · rw [if_pos h, if_pos ((same_document_iff hrow hdocument).2 h)]
  · rw [if_neg h, if_neg fun hsame => h ((same_document_iff hrow hdocument).1 hsame)]
    rfl

theorem keyed_overwritten (hrow : Keyed row) (hdocument : document.keys.Nodup) :
    Keyed (overwritten row document time) := by
  rw [overwritten]
  split
  · exact hrow
  · exact ⟨rfl, hdocument⟩

/-! ## Operations -/

variable {c : Context} {w : World}

/-- The row that a write finds or makes. -/
def startingRow (c : Context) (s : Store) : SettingsRow := s.settings.getD (defaultRow c.now)

/-- A world with another settings row. -/
def placed (w : World) (row : SettingsRow) : World := { w with store := w.store.putSettings row }

theorem placed_self (h : w.store.settings = some row) : placed w row = w := by
  obtain ⟨s, events⟩ := w
  change s.settings = some row at h
  rw [placed, Store.putSettings, ← h]

theorem ensure_run :
    ensure c w = (.ok (startingRow c w.store), placed w (startingRow c w.store)) := by
  simp only [ensure, bind_eq, store_andThen, startingRow]
  cases hrow : w.store.settings with
  | some row =>
      rw [Option.getD_some, placed_self hrow]
      rfl
  | none => rfl

theorem overwrite_run (h : w.store.settings = some row) :
    overwrite row document c w = (.ok (), placed w (overwritten row document c.now)) := by
  rw [overwrite, overwritten]
  split
  · rw [placed_self h]
    rfl
  · rfl

theorem update_run {values : OrderedMap Json} (h : (Write.update values).isStorable = true) :
    let row := startingRow c w.store
    let merged := row.data.entries.merge values
    update values c w = (.ok merged, placed w (overwritten row merged c.now)) := by
  intro row merged
  have hstorable : (values.all fun e => e.2.canShow) = true := h
  rw [update, bind_eq, andThen_of_ok ensure_run]
  rw [if_pos hstorable]
  have hoverwrite : overwrite row merged c (placed w row) = _ := overwrite_run rfl
  rw [bind_eq, andThen_of_ok hoverwrite]
  rfl

/-- An update that cannot be stored fails once there is a row. -/
theorem update_run_unstorable {values : OrderedMap Json}
    (h : (Write.update values).isStorable = false) :
    update values c w = (.error .unstorable, placed w (startingRow c w.store)) := by
  have hunstorable : (values.all fun e => e.2.canShow) = false := h
  rw [update, bind_eq, andThen_of_ok ensure_run]
  rw [if_neg (by simp [hunstorable])]
  rfl

theorem delete_run_none (h : w.store.settings = none) (key : String) :
    delete key c w = (.ok false, w) := by
  simp only [delete, bind_eq, store_andThen, h]
  rfl

theorem delete_run_some (h : w.store.settings = some row) (key : String) :
    delete key c w =
      if row.data.hasField key then
        (.ok true, placed w (overwritten row (row.data.entries.remove key) c.now))
      else (.ok false, w) := by
  simp only [delete, bind_eq, store_andThen, h]
  split
  · rw [andThen_of_ok (overwrite_run h)]
    rfl
  · rfl

/-- The defaults that a row lacks. -/
def missing (row : SettingsRow) : OrderedMap Json := defaults.filter fun e => !row.data.hasField e.1

/-- The defaults can be stored, as many of them as are missing. -/
theorem isStorable_missing (row : SettingsRow) :
    (Write.update (missing row)).isStorable = true := by
  have hdefaults : ∀ e ∈ defaults, e.2.canShow = true := by decide +kernel
  have hmissing : ((missing row).all fun e => e.2.canShow) = true :=
    List.all_eq_true.2 fun e he => hdefaults e (List.mem_of_mem_filter he)
  exact hmissing

theorem seed_run :
    let row := startingRow c w.store
    seed c w =
      (.ok (missing row),
        placed w (if missing row = [] then row
          else overwritten row (row.data.entries.merge (missing row)) c.now)) := by
  intro row
  rw [seed, bind_eq, andThen_of_ok ensure_run]
  change ite ((missing row).isEmpty = true) (done [])
    ((update (missing row)).andThen fun _ => done (missing row)) c (placed w row) = _
  by_cases hmissing : missing row = []
  · rw [if_pos hmissing, hmissing]
    rfl
  · rw [if_neg (by rwa [List.isEmpty_iff]), if_neg hmissing,
      andThen_of_ok (update_run (isStorable_missing row))]
    rfl

/-! ## One write -/

theorem mapIn_eq_some (h : w.store.settings = some row) : mapIn w.store = some (rowMap row) := by
  rw [mapIn, h]
  rfl

theorem rowMap_startingRow (c : Context) (s : Store) :
    rowMap (startingRow c s) = start (mapIn s) := by
  rw [startingRow, mapIn]
  cases s.settings <;> rfl

theorem get?_merge_startingRow (c : Context) (s : Store) (values : OrderedMap Json) :
    ((startingRow c s).data.entries.merge values).get? =
      (start (mapIn s)).overridden values := by
  rw [← rowMap_startingRow c s]
  funext key
  exact OrderedMap.get?_merge

/-- Overriding one key is updating the function there. -/
theorem overridden_singleton (d : Map) (key : String) (value : Json) :
    d.overridden [(key, value)] = Function.update d key (some value) := by
  funext other
  have hdistinct : (OrderedMap.keys [(key, value)]).Nodup := List.nodup_singleton _
  rw [Map.overridden, OrderedMap.get?_ofEntries hdistinct, OrderedMap.get?, Function.update_apply]
  by_cases h : key = other
  · rw [if_pos h, if_pos h.symm, Option.some_or]
  · rw [if_neg h, if_neg (Ne.symm h), OrderedMap.get?_nil, Option.none_or]

/-- Overriding the missing defaults adds them. -/
theorem overridden_missing (row : SettingsRow) :
    (rowMap row).overridden (missing row) = fun key => (rowMap row key).or (defaultMap key) := by
  funext key
  have hdistinct : (missing row).keys.Nodup := OrderedMap.nodup_keys_filter nodup_keys_defaults _
  have hfound : (missing row).get? key =
      if !row.data.hasField key then OrderedMap.get? defaults key else none :=
    OrderedMap.get?_filter_keys fun k => !row.data.hasField k
  rw [Map.overridden, OrderedMap.get?_ofEntries hdistinct, hfound, Json.hasField, OrderedMap.has,
    rowMap]
  cases row.data.entries.get? key with
  | none => rw [Option.isSome_none, Bool.not_false, if_pos rfl, Option.or_none, Option.none_or]; rfl
  | some value => rw [Option.isSome_some, Bool.not_true, if_neg Bool.false_ne_true]; rfl

/-- Removing a key is updating the function there. -/
theorem get?_removed (m : OrderedMap Json) (key : String) :
    (m.remove key).get? = Function.update m.get? key none := by
  funext other
  rw [OrderedMap.get?_remove, Function.update_apply]
  exact if_congr eq_comm rfl rfl

/-- Every settings row of a store is keyed. -/
def AllKeyed (s : Store) : Prop := ∀ row, s.settings = some row → Keyed row

theorem AllKeyed.startingRow {s : Store} (h : AllKeyed s) (c : Context) :
    Keyed (startingRow c s) := by
  rw [Settings.startingRow]
  cases hrow : s.settings with
  | none => exact keyed_defaultRow c.now
  | some row => exact h row hrow

theorem allKeyed_placed (hrow : Keyed row) : AllKeyed (placed w row).store := by
  rintro _ ⟨⟩
  exact hrow

theorem Map.written_self (d : Map) : d.written d = d := by
  rw [Map.written, ite_self]

/-- What is kept after a document is written into the row where a write
starts. -/
theorem mapIn_overwritten (hw : AllKeyed w.store) (hdocument : document.keys.Nodup) :
    mapIn (placed w (overwritten (startingRow c w.store) document time)).store =
      some ((start (mapIn w.store)).written document.get?) := by
  rw [← rowMap_startingRow c, ← rowMap_overwritten (hw.startingRow c) hdocument]
  rfl

theorem update_effect (hw : AllKeyed w.store) {values : OrderedMap Json}
    (h : (Write.update values).isStorable = true) :
    ∃ answer w', update values c w = (.ok answer, w') ∧ AllKeyed w'.store ∧
      answer.get? = (start (mapIn w.store)).overridden values ∧
      mapIn w'.store = some ((start (mapIn w.store)).written answer.get?) := by
  have hrow := hw.startingRow c
  have hmerged : ((startingRow c w.store).data.entries.merge values).keys.Nodup :=
    OrderedMap.nodup_keys_merge hrow.distinct
  exact ⟨_, _, update_run h, allKeyed_placed (keyed_overwritten hrow hmerged),
    get?_merge_startingRow c w.store values, mapIn_overwritten hw hmerged⟩

theorem delete_effect (hw : AllKeyed w.store) (key : String) :
    ∃ w', delete key c w = (.ok (valueAt (mapIn w.store) key).isSome, w') ∧ AllKeyed w'.store ∧
      mapIn w'.store = ((Write.delete key).on (mapIn w.store)).map
        (start (mapIn w.store)).written := by
  cases hsettings : w.store.settings with
  | none =>
      have hnone : mapIn w.store = none := by rw [mapIn, hsettings, Option.map_none]
      rw [hnone]
      exact ⟨w, delete_run_none hsettings key, hw, hnone⟩
  | some row =>
      have hrow := hw row hsettings
      have hsome : mapIn w.store = some (rowMap row) := mapIn_eq_some hsettings
      have hstart : startingRow c w.store = row := by rw [startingRow, hsettings, Option.getD_some]
      have hfield : (valueAt (mapIn w.store) key).isSome = row.data.hasField key := by
        rw [hsome]; rfl
      rw [delete_run_some hsettings, hfield]
      by_cases hkey : row.data.hasField key = true
      · have hremoved : (row.data.entries.remove key).keys.Nodup :=
          OrderedMap.nodup_keys_remove hrow.distinct
        refine ⟨_, by rw [if_pos hkey, hkey], allKeyed_placed (keyed_overwritten hrow hremoved), ?_⟩
        rw [← hstart, mapIn_overwritten hw (hstart ▸ hremoved), hstart, get?_removed, hsome]
        rfl
      · have hlacks : rowMap row key = none := by
          rwa [Json.hasField, OrderedMap.has, Option.not_isSome_iff_eq_none] at hkey
        refine ⟨w, by rw [if_neg hkey, Bool.eq_false_iff.2 hkey], hw, ?_⟩
        rw [hsome, Write.on, Option.map_some, Option.map_some, ← hlacks, Function.update_eq_self,
          start, Option.getD_some, Map.written_self]

theorem seed_effect (hw : AllKeyed w.store) :
    ∃ w', seed c w =
        (.ok (defaults.filter fun e => (start (mapIn w.store) e.1).isNone), w') ∧
      AllKeyed w'.store ∧
      mapIn w'.store = (Write.seed.on (mapIn w.store)).map (start (mapIn w.store)).written := by
  have hrow := hw.startingRow c
  have hmissing : missing (startingRow c w.store) =
      defaults.filter fun e => (start (mapIn w.store) e.1).isNone := by
    rw [← rowMap_startingRow c]
    refine List.filter_congr fun e _ => ?_
    rw [Json.hasField, OrderedMap.has, Option.not_isSome]
    rfl
  have hadded := overridden_missing (startingRow c w.store)
  rw [rowMap_startingRow] at hadded
  rw [← hmissing, seed_run]
  refine ⟨_, rfl, ?_⟩
  by_cases hnone : missing (startingRow c w.store) = []
  · rw [if_pos hnone]
    refine ⟨allKeyed_placed hrow, ?_⟩
    rw [hnone] at hadded
    rw [Write.on, ← hadded, Option.map_some]
    exact congrArg some ((rowMap_startingRow c w.store).trans (Map.written_self _).symm)
  · rw [if_neg hnone]
    have hmerged : ((startingRow c w.store).data.entries.merge
        (missing (startingRow c w.store))).keys.Nodup := OrderedMap.nodup_keys_merge hrow.distinct
    refine ⟨allKeyed_placed (keyed_overwritten hrow hmerged), ?_⟩
    rw [mapIn_overwritten hw hmerged, get?_merge_startingRow, hadded]
    rfl

/-- Every write that can be stored has a result, and keeps what its map is written over. -/
theorem Write.mapIn_called (hw : AllKeyed w.store) (c : Context) {write : Write}
    (h : write.isStorable = true) :
    let w' := w.called ⟨c, write.operation⟩
    AllKeyed w'.store ∧
      mapIn w'.store = (write.on (mapIn w.store)).map (start (mapIn w.store)).written := by
  intro w'
  cases write with
  | ensure =>
      have hw' : w' = placed w (startingRow c w.store) := World.called_of_ok rfl ensure_run
      rw [hw', Write.on, Option.map_some, Map.written_self, ← rowMap_startingRow c]
      exact ⟨allKeyed_placed (hw.startingRow c), rfl⟩
  | update values =>
      obtain ⟨answer, w₁, hrun, hkeyed, hanswer, hmap⟩ := update_effect (c := c) hw h
      have hw' : w' = w₁ := World.called_of_ok rfl hrun
      rw [hw', hmap, hanswer]
      exact ⟨hkeyed, rfl⟩
  | set key value =>
      obtain ⟨answer, w₁, hrun, hkeyed, hanswer, hmap⟩ := update_effect (c := c) hw h
      have hset : Settings.set key value c w = (.ok answer, w₁) := hrun
      have hw' : w' = w₁ := World.called_of_ok rfl hset
      rw [hw', hmap, hanswer, overridden_singleton]
      exact ⟨hkeyed, rfl⟩
  | delete key =>
      obtain ⟨w₁, hrun, hkeyed, hmap⟩ := delete_effect (c := c) hw key
      have hw' : w' = w₁ := World.called_of_ok rfl hrun
      rw [hw']
      exact ⟨hkeyed, hmap⟩
  | seed =>
      obtain ⟨w₁, hrun, hkeyed, hmap⟩ := seed_effect (c := c) hw
      have hw' : w' = w₁ := World.called_of_ok rfl hrun
      rw [hw']
      exact ⟨hkeyed, hmap⟩

/-- A write that cannot be stored fails, and leaves everything as it was. -/
theorem Write.called_of_unstorable {write : Write} (h : write.isStorable = false) :
    (write.operation.action c w).1 = .error .unstorable ∧
      w.called ⟨c, write.operation⟩ = w := by
  have hupdate {values : OrderedMap Json} (hvalues : (update values).isStorable = false) :
      ((update values).operation.action c w).1 = .error .unstorable ∧
        w.called ⟨c, (update values).operation⟩ = w := by
    have hrun : (update values).operation.action c w =
        (.error .unstorable, placed w (startingRow c w.store)) := by
      change (Settings.update values).discarded c w = _
      rw [discarded, andThen, update_run_unstorable hvalues]
    rw [World.called, transaction, hrun]
    exact ⟨rfl, rfl⟩
  cases write with
  | update values => exact hupdate h
  | set key value => exact @hupdate [(key, value)] h
  | _ => cases h

theorem Map.written_eq {d wanted : Map} (h : d.Alike wanted → d = wanted) :
    d.written wanted = wanted := by
  rw [Map.written]
  by_cases halike : d.Alike wanted
  · rw [if_pos halike, h halike]
  · rw [if_neg halike]

theorem Map.Alike.eq_none_iff {d d' : Map} (h : d.Alike d') (key : String) :
    d key = none ↔ d' key = none := by
  have hkey := h key
  generalize d key = x, d' key = y at hkey
  cases hkey <;> simp

/-- A write that is not lost is kept as it is asked for. -/
theorem Write.map_written_of_not_lost {write : Write} {m : Option Map} (h : ¬ write.IsLost m) :
    (write.on m).map (start m).written = write.on m := by
  cases write with
  | ensure => exact congrArg some (Map.written_self _)
  | update values =>
      refine congrArg some (Map.written_eq fun halike => ?_)
      by_contra hne
      exact h ⟨values, rfl, halike, hne⟩
  | set key value =>
      refine congrArg some (Map.written_eq fun halike => ?_)
      rw [← overridden_singleton] at halike ⊢
      by_contra hne
      exact h ⟨[(key, value)], rfl, halike, hne⟩
  | delete key =>
      cases m with
      | none => rfl
      | some d =>
          refine congrArg some (Map.written_eq fun halike => ?_)
          have hkey : d key = none := (halike.eq_none_iff key).2 (Function.update_self ..)
          change d = Function.update d key none
          rw [← hkey, Function.update_eq_self]
  | seed =>
      refine congrArg some (Map.written_eq fun halike => funext fun key => ?_)
      cases hkey : start m key with
      | none => rw [← hkey, (halike.eq_none_iff key).1 hkey, hkey]
      | some x => rw [Option.some_or]

/-! ## The kept map and the intended one -/

theorem Map.StandsFor.refl (d : Map) : d.StandsFor d := by
  intro key
  cases d key with
  | none => exact .none
  | some x => exact .some (.inl rfl)

/-- A map that stands for another has the same keys. -/
theorem Map.StandsFor.isSome_eq {d m : Map} (h : d.StandsFor m) (key : String) :
    (d key).isSome = (m key).isSome := by
  have hkey := h key
  generalize d key = x, m key = y at hkey
  cases hkey <;> rfl

/-- Where a write does to both maps the same, what it keeps stands for what is
intended: at the keys that it writes values are equal as values at least, at the
others they are as before. -/
theorem Map.StandsFor.written {d m d' m' : Map} (h : d.StandsFor m)
    (hkeys : ∀ key, d' key = m' key ∨ d' key = d key ∧ m' key = m key) :
    (d.written d').StandsFor m' := by
  intro key
  rw [Map.written]
  by_cases halike : d.Alike d'
  · rw [if_pos halike]
    rcases hkeys key with hsame | ⟨-, hbefore⟩
    · have hkey := halike key
      rw [hsame] at hkey
      generalize d key = x, m' key = y at hkey
      cases hkey with
      | none => exact .none
      | some hvalues => exact .some (Json.standsFor_of_sameInside hvalues)
    · rw [hbefore]
      exact h key
  · rw [if_neg halike]
    rcases hkeys key with hsame | ⟨hd, hm⟩
    · rw [hsame]
      exact StandsFor.refl m' key
    · rw [hd, hm]
      exact h key

theorem standsFor_start {stored m : Option Map} (h : Option.Rel Map.StandsFor stored m) :
    (start stored).StandsFor (start m) := by
  cases h with
  | none => exact .refl defaultMap
  | some h => exact h

/-- Updating two maps at a key makes them agree there and changes nothing else. -/
theorem update_keywise {d m : Map} (key : String) (value : Option Json) (other : String) :
    Function.update d key value other = Function.update m key value other ∨
      Function.update d key value other = d other ∧
        Function.update m key value other = m other := by
  rw [Function.update_apply, Function.update_apply]
  by_cases hkey : other = key
  · exact .inl (by rw [if_pos hkey, if_pos hkey])
  · exact .inr ⟨if_neg hkey, if_neg hkey⟩

/-- Every write keeps a map that stands for the intended one. -/
theorem Write.standsFor_on (write : Write) {stored m : Option Map}
    (h : Option.Rel Map.StandsFor stored m) :
    Option.Rel Map.StandsFor ((write.on stored).map (start stored).written) (write.on m) := by
  have hstart := standsFor_start h
  cases write with
  | ensure => exact .some (hstart.written fun key => .inr ⟨rfl, rfl⟩)
  | update values =>
      refine .some (hstart.written fun key => ?_)
      rw [Map.overridden, Map.overridden]
      cases (OrderedMap.ofEntries values).get? key with
      | none => exact .inr ⟨rfl, rfl⟩
      | some value => exact .inl rfl
  | set key value =>
      exact .some (hstart.written (update_keywise key (some value)))
  | delete key =>
      cases h with
      | none => exact .none
      | some h => exact .some (Map.StandsFor.written h (update_keywise key none))
  | seed =>
      refine .some (hstart.written fun key => ?_)
      have hsome := hstart.isSome_eq key
      cases hkept : start stored key with
      | none =>
          rw [hkept, Option.isSome_none, eq_comm, Option.isSome_eq_false_iff,
            Option.isNone_iff_eq_none] at hsome
          exact .inl (by rw [hsome])
      | some x =>
          rw [hkept, Option.isSome_some, eq_comm, Option.isSome_iff_exists] at hsome
          obtain ⟨y, hy⟩ := hsome
          exact .inr ⟨rfl, by rw [hy]; rfl⟩

/-! ## Runs -/

theorem after_concat (writes : List (Context × Write)) (x : Context × Write) :
    World.after {} (calls (writes ++ [x])) =
      (World.after {} (calls writes)).called ⟨x.1, x.2.operation⟩ := by
  rw [calls, List.map_append, World.after_append]
  rfl

theorem intended_concat (writes : List (Context × Write)) (x : Context × Write) :
    intended ((writes ++ [x]).map (·.2)) =
      if x.2.isStorable then x.2.on (intended (writes.map (·.2)))
      else intended (writes.map (·.2)) := by
  rw [intended, List.map_append, List.map_singleton, List.filter_append, List.foldl_append,
    List.filter_singleton]
  cases x.2.isStorable <;> rfl

/-- After any writes the stored document stands for the intended map. -/
theorem standsFor_after (writes : List (Context × Write)) :
    let s := (World.after {} (calls writes)).store
    AllKeyed s ∧ Option.Rel Map.StandsFor (mapIn s) (intended (writes.map (·.2))) := by
  induction writes using List.reverseRecOn with
  | nil =>
      refine ⟨fun row hrow => ?_, Option.Rel.none⟩
      cases hrow
  | append_singleton writes x ih =>
      obtain ⟨hkeyed, hstands⟩ := ih
      rw [after_concat, intended_concat]
      cases hstorable : x.2.isStorable with
      | true =>
          obtain ⟨hkeyed', hmap⟩ := Write.mapIn_called hkeyed x.1 hstorable
          exact ⟨hkeyed', hmap ▸ x.2.standsFor_on hstands⟩
      | false =>
          rw [(Write.called_of_unstorable hstorable).2]
          exact ⟨hkeyed, hstands⟩

/-- No write of a run is lost. -/
def NoneLost (writes : List (Context × Write)) : Prop :=
  ∀ earlier x later, writes = earlier ++ x :: later →
    ¬ x.2.IsLost (mapIn (World.after {} (calls earlier)).store)

/-- Where no write is lost the stored document is the intended map. -/
theorem mapIn_of_noneLost {writes : List (Context × Write)} (h : NoneLost writes) :
    mapIn (World.after {} (calls writes)).store = intended (writes.map (·.2)) := by
  induction writes using List.reverseRecOn with
  | nil => rfl
  | append_singleton writes x ih =>
      have hbefore := ih fun earlier y later heq =>
        h earlier y (later ++ [x]) (by rw [heq, List.append_assoc, List.cons_append])
      rw [after_concat, intended_concat]
      cases hstorable : x.2.isStorable with
      | true =>
          obtain ⟨-, hmap⟩ := Write.mapIn_called (standsFor_after writes).1 x.1 hstorable
          rw [hmap, Write.map_written_of_not_lost (h writes x [] rfl), hbefore]
          rfl
      | false =>
          rw [(Write.called_of_unstorable hstorable).2, hbefore]
          rfl

/-! ## Answers -/

/-- What reads and writes answer where a map is stored. -/
structure Answers (w : World) (m : Option Map) : Prop where
  get : ∀ c key default,
    Settings.get key default c w = (.ok ((valueAt m key).getD default), w)
  getAll : ∀ c,
    Settings.getAll c w = (.ok (defaults.map fun e => (e.1, (valueAt m e.1).getD e.2)), w)
  ensure : ∀ c, ∃ row, Settings.ensure c w = (.ok row, w.called ⟨c, .ensureSettings⟩) ∧
    rowMap row = start m
  update : ∀ c values, (Write.update values).isStorable = true → ∃ document,
    Settings.update values c w = (.ok document, w.called ⟨c, .updateSettings values⟩) ∧
      document.get? = (start m).overridden values
  set : ∀ c key value, (Write.set key value).isStorable = true → ∃ document,
    Settings.set key value c w = (.ok document, w.called ⟨c, .setSetting key value⟩) ∧
      document.get? = Function.update (start m) key (some value)
  delete : ∀ c key,
    Settings.delete key c w = (.ok (valueAt m key).isSome, w.called ⟨c, .deleteSetting key⟩)
  seed : ∀ c,
    Settings.seed c w =
      (.ok (defaults.filter fun e => (start m e.1).isNone), w.called ⟨c, .seedSettings⟩)
  unstorable : ∀ c (write : Write), write.isStorable = false →
    (write.operation.action c w).1 = .error .unstorable ∧ w.called ⟨c, write.operation⟩ = w

/-- Every operation answers from the stored map. -/
theorem answers (hw : AllKeyed w.store) : Answers w (mapIn w.store) where
  get c key default := by
    rw [Settings.get, bind_eq, stored_andThen, mapIn]
    cases w.store.settings <;> rfl
  getAll c := by
    rw [Settings.getAll, bind_eq, stored_andThen, mapIn]
    cases w.store.settings <;> rfl
  ensure c := by
    have hcalled : w.called ⟨c, .ensureSettings⟩ = _ := World.called_of_ok rfl ensure_run
    exact ⟨_, by rw [hcalled]; exact ensure_run, rowMap_startingRow c w.store⟩
  update c values h := by
    obtain ⟨answer, w', hrun, -, hanswer, -⟩ := update_effect (c := c) hw h
    have hcalled : w.called ⟨c, .updateSettings values⟩ = w' := World.called_of_ok rfl hrun
    exact ⟨answer, by rw [hrun, hcalled], hanswer⟩
  set c key value h := by
    obtain ⟨answer, w', hrun, -, hanswer, -⟩ := update_effect (c := c) hw h
    have hset : Settings.set key value c w = (.ok answer, w') := hrun
    have hcalled : w.called ⟨c, .setSetting key value⟩ = w' := World.called_of_ok rfl hset
    exact ⟨answer, by rw [hset, hcalled], hanswer.trans (overridden_singleton ..)⟩
  delete c key := by
    obtain ⟨w', hrun, -, -⟩ := delete_effect (c := c) hw key
    have hcalled : w.called ⟨c, .deleteSetting key⟩ = w' := World.called_of_ok rfl hrun
    rw [hrun, hcalled]
  seed c := by
    obtain ⟨w', hrun, -, -⟩ := seed_effect (c := c) hw
    have hcalled : w.called ⟨c, .seedSettings⟩ = w' := World.called_of_ok rfl hrun
    rw [hrun, hcalled]
  unstorable c _ h := Write.called_of_unstorable h

end Settings

/-- The settings document is a finite map.  After any writes from an empty store there is
a document exactly when a write made one, it has the keys of the map that the writes
intend, and the values are these or equal to these as values; where no update was lost
the stored map is the intended one.  The next write keeps what it asks for, unless that is
alike the stored map.  And every operation answers from the stored map: a read by the value
or by the default that it is given, a removal by whether its key was there, and seeding by
the defaults that are missing.  Only a write with a value that cannot be stored fails, and it
changes nothing. -/
theorem settings_document_refines_map (writes : List (Context × Settings.Write)) :
    let w := World.after {} (Settings.calls writes)
    let stored := Settings.mapIn w.store
    let intended := Settings.intended (writes.map (·.2))
    Option.Rel Settings.Map.StandsFor stored intended ∧
      (Settings.NoneLost writes → stored = intended) ∧
      (∀ c (write : Settings.Write), write.isStorable = true →
        Settings.mapIn (w.called ⟨c, write.operation⟩).store =
          (write.on stored).map (Settings.start stored).written) ∧
      Settings.Answers w stored := by
  intro w stored intended
  obtain ⟨hkeyed, hstands⟩ := Settings.standsFor_after writes
  refine ⟨hstands, Settings.mapIn_of_noneLost, fun c write hstorable => ?_,
    Settings.answers hkeyed⟩
  exact (Settings.Write.mapIn_called hkeyed c hstorable).2

/-- A truth value that is written over the number one is lost: the update answers with it,
the store keeps the number. -/
theorem settings_document_misses_update :
    let writes : List (Context × Settings.Write) :=
      [(default, .set "maintenance" (.int 1)), (default, .set "maintenance" (.bool true))]
    let w := World.after {} (Settings.calls writes)
    Settings.get "maintenance" .null default w = (.ok (.int 1), w) ∧
      Settings.valueAt (Settings.intended (writes.map (·.2))) "maintenance" =
        some (.bool true) := by
  decide +kernel

end VaultGovernance
