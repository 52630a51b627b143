import Mathlib.Data.List.Induction
import Mathlib.Data.List.Perm.Subperm
import VaultGovernance.Json.Basic
import VaultGovernance.Proofs.Balances

/-!
# VaultGovernance.Proofs.Maps

Ordered maps as functions from keys.  What is read at a key after a write is
read off the write alone, so the order of the entries does not matter, as long
as no key comes twice; writing, merging and removing keep it so.  Then equality
of objects as values is equality key by key.
-/

namespace VaultGovernance

namespace OrderedMap

variable {α : Type} {m updates : OrderedMap α} {key : String} {value : α}

theorem keys_cons (e : String × α) : keys (e :: m) = e.1 :: m.keys := rfl

/-! ## Reading -/

/-- Nothing is found exactly at the keys that are not there. -/
theorem get?_eq_none : m.get? key = none ↔ key ∉ m.keys := by
  induction m with
  | nil => simp [keys]
  | cons e rest ih =>
      rw [get?, keys_cons, List.mem_cons, not_or]
      split
      · next hkey => simp [hkey]
      · next hkey => rw [ih]; exact ⟨fun h => ⟨Ne.symm hkey, h⟩, And.right⟩

theorem has_iff : m.has key = true ↔ key ∈ m.keys := by
  rw [has, Option.isSome_iff_ne_none, ne_eq, get?_eq_none, not_not]

/-- What is found in two lists of entries is found in the first one that has the
key. -/
theorem get?_append (more : OrderedMap α) :
    get? (m ++ more) key = (m.get? key).or (more.get? key) := by
  induction m with
  | nil => rfl
  | cons e rest ih =>
      rw [List.cons_append, get?, get?]
      split
      · rfl
      · exact ih

/-- Every entry is found, where no key comes twice. -/
theorem get?_of_mem (distinct : m.keys.Nodup) (h : (key, value) ∈ m) :
    m.get? key = some value := by
  induction m with
  | nil => cases h
  | cons e rest ih =>
      rw [keys_cons, List.nodup_cons] at distinct
      rw [get?]
      cases List.mem_cons.1 h with
      | inl hfirst => rw [← hfirst, if_pos rfl]
      | inr hrest =>
          have hne : e.1 ≠ key := fun he => distinct.1 (he ▸ List.mem_map_of_mem hrest)
          rw [if_neg hne]
          exact ih distinct.2 hrest

/-- Of the entries with some keys, those are found. -/
theorem get?_filter_keys (p : String → Bool) :
    get? (m.filter fun e => p e.1) key = if p key then m.get? key else none := by
  induction m with
  | nil => simp
  | cons e rest ih =>
      by_cases hp : p e.1 = true
      · rw [List.filter_cons_of_pos (by exact hp), get?, get?, ih]
        split
        · next hkey => rw [← hkey, if_pos hp]
        · rfl
      · rw [List.filter_cons_of_neg (by exact hp), ih, get?]
        by_cases hkey : e.1 = key
        · rw [← hkey, if_neg hp, if_neg hp]
        · rw [if_neg hkey]

/-! ## Merging -/

theorem merge_concat (e : String × α) :
    m.merge (updates ++ [e]) = (m.merge updates).put e.1 e.2 := by
  rw [merge, List.foldl_append]
  rfl

/-- A merged map has the later value at every key that is written, and its own
value elsewhere. -/
theorem get?_merge :
    (m.merge updates).get? key = ((ofEntries updates).get? key).or (m.get? key) := by
  induction updates using List.reverseRecOn with
  | nil => rfl
  | append_singleton rest e ih =>
      rw [ofEntries, merge_concat, merge_concat, get?_put, get?_put, ih, ofEntries]
      split
      · rfl
      · rfl

/-- Entries without a repeated key are the map that they denote. -/
theorem get?_ofEntries (distinct : updates.keys.Nodup) :
    (ofEntries updates).get? key = updates.get? key := by
  induction updates using List.reverseRecOn with
  | nil => rfl
  | append_singleton rest e ih =>
      rw [keys, List.map_append, List.nodup_append] at distinct
      obtain ⟨hrest, -, hapart⟩ := distinct
      rw [ofEntries, merge_concat, get?_put, get?_append, ← ih hrest, ofEntries]
      split
      · next hkey =>
        have hnone : get? rest key = none :=
          get?_eq_none.2 fun hmem => hapart _ hmem e.1 (by simp) hkey.symm
        rw [← ofEntries, ih hrest, hnone, Option.none_or, get?, if_pos hkey]
      · next hkey => rw [get?, if_neg hkey, get?_nil, Option.or_none]

theorem mem_put {e : String × α} (h : e ∈ m.put key value) : e = (key, value) ∨ e ∈ m := by
  induction m with
  | nil => exact .inl (List.mem_singleton.1 h)
  | cons first rest ih =>
      rw [put] at h
      split at h
      · next hkey =>
        rcases List.mem_cons.1 h with rfl | hrest
        · exact .inl (by rw [hkey])
        · exact .inr (List.mem_cons_of_mem _ hrest)
      · rcases List.mem_cons.1 h with rfl | hrest
        · exact .inr List.mem_cons_self
        · exact (ih hrest).imp_right (List.mem_cons_of_mem _)

/-- An entry of the map that entries denote is one of them. -/
theorem mem_of_mem_ofEntries {e : String × α} (h : e ∈ ofEntries updates) : e ∈ updates := by
  induction updates using List.reverseRecOn with
  | nil => exact h
  | append_singleton rest last ih =>
      rw [ofEntries, merge_concat] at h
      rcases mem_put h with rfl | hrest
      · exact List.mem_append_right _ List.mem_cons_self
      · exact List.mem_append_left _ (ih hrest)

/-! ## Keys -/

/-- A write adds its key at the end, unless it is there. -/
theorem keys_put : (m.put key value).keys = if key ∈ m.keys then m.keys else m.keys ++ [key] := by
  induction m with
  | nil => rfl
  | cons e rest ih =>
      rw [put]
      by_cases hkey : e.1 = key
      · simp [keys_cons, hkey]
      · rw [if_neg hkey, keys_cons, ih, keys_cons]
        by_cases hrest : key ∈ keys rest
        · rw [if_pos hrest, if_pos (List.mem_cons_of_mem _ hrest)]
        · have hall : key ∉ e.1 :: keys rest :=
            List.not_mem_cons_of_ne_of_not_mem (Ne.symm hkey) hrest
          rw [if_neg hrest, if_neg hall, List.cons_append]

theorem nodup_keys_put (distinct : m.keys.Nodup) : (m.put key value).keys.Nodup := by
  rw [keys_put]
  split
  · exact distinct
  · next hkey => exact List.concat_eq_append ▸ distinct.concat hkey

theorem nodup_keys_merge (distinct : m.keys.Nodup) : (m.merge updates).keys.Nodup := by
  induction updates using List.reverseRecOn with
  | nil => exact distinct
  | append_singleton rest e ih =>
      rw [merge_concat]
      exact nodup_keys_put ih

theorem nodup_keys_filter (distinct : m.keys.Nodup) (p : String × α → Bool) :
    (keys (m.filter p)).Nodup :=
  distinct.sublist (List.filter_sublist.map _)

theorem nodup_keys_remove (distinct : m.keys.Nodup) : (m.remove key).keys.Nodup :=
  nodup_keys_filter distinct _

end OrderedMap

/-! ## Objects -/

namespace Json

/-- The first value is kept where the second was to be: they are the same data or
equal as values. -/
def StandsFor (kept wanted : Json) : Prop := kept = wanted ∨ same kept wanted = true

/-- Values that are equal inside a container are the same data or equal as values. -/
theorem standsFor_of_sameInside {x y : Json} (h : sameInside x y = true) : x.StandsFor y := by
  rw [sameInside, Bool.or_eq_true] at h
  refine h.imp_left fun hnan => ?_
  rw [bothNan.eq_def] at hnan
  split at hnan
  · rfl
  · cases hnan

theorem sameEntries_iff {xs ys : OrderedMap Json} :
    sameEntries xs ys = true ↔ ∀ e ∈ xs, ∃ y, ys.get? e.1 = some y ∧ sameInside e.2 y = true := by
  induction xs with
  | nil => simp [sameEntries]
  | cons e rest ih =>
      rw [sameEntries, Bool.and_eq_true, ih, List.forall_mem_cons]
      refine and_congr_left' ?_
      cases ys.get? e.1 with
      | none => simp
      | some y => simp [sameInside]

/-- Objects are equal as values exactly when they are so key by key, inside. -/
theorem same_obj_iff {xs ys : OrderedMap Json} (hxs : xs.keys.Nodup) (hys : ys.keys.Nodup) :
    same (.obj xs) (.obj ys) = true ↔
      ∀ key, Option.Rel (fun x y => sameInside x y = true) (xs.get? key) (ys.get? key) := by
  rw [same, Bool.and_eq_true, beq_iff_eq, sameEntries_iff]
  constructor
  · rintro ⟨hlength, hfound⟩ key
    have hsubset : xs.keys ⊆ ys.keys := by
      intro k hk
      obtain ⟨e, he, rfl⟩ := List.mem_map.1 hk
      obtain ⟨y, hy, -⟩ := hfound e he
      exact OrderedMap.has_iff.1 (by rw [OrderedMap.has, hy, Option.isSome_some])
    -- there are as many keys on both sides, so neither side has one of its own
    have hperm : xs.keys.Perm ys.keys := by
      refine (List.subperm_of_subset hxs hsubset).perm_of_length_le (Nat.le_of_eq ?_)
      rw [OrderedMap.keys, OrderedMap.keys, List.length_map, List.length_map, hlength]
    cases hx : xs.get? key with
    | none =>
        have hnone : ys.get? key = none :=
          OrderedMap.get?_eq_none.2 fun hmem =>
            OrderedMap.get?_eq_none.1 hx (hperm.mem_iff.2 hmem)
        rw [hnone]
        exact .none
    | some x =>
        obtain ⟨y, hy, hsame⟩ := hfound _ (OrderedMap.mem_of_get? hx)
        rw [hy]
        exact .some hsame
  · intro hrel
    refine ⟨?_, fun e he => ?_⟩
    · have hmem : ∀ key, key ∈ xs.keys ↔ key ∈ ys.keys := by
        intro key
        have hkey := hrel key
        rw [← OrderedMap.has_iff, ← OrderedMap.has_iff, OrderedMap.has, OrderedMap.has]
        generalize xs.get? key = x, ys.get? key = y at hkey
        cases hkey <;> simp
      have hlength := ((List.perm_ext_iff_of_nodup hxs hys).2 hmem).length_eq
      rwa [OrderedMap.keys, OrderedMap.keys, List.length_map, List.length_map] at hlength
    · have hkey := hrel e.1
      rw [OrderedMap.get?_of_mem hxs he] at hkey
      generalize hy : ys.get? e.1 = y at hkey
      cases hkey with
      | some hsame => exact ⟨_, rfl, hsame⟩

end Json

end VaultGovernance
