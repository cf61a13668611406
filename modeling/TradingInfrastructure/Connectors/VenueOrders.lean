import TradingInfrastructure.Connectors.LiveConnectorBase

/-!
# The entries of the venue order map

What `upsert` and `erase` do to the entry of an order and to the others. A map has one entry for a
client order id at most (`VenueOrderMap.Unique`), so an order that is erased is not found
(`Unique.get_erase_self`).
-/

namespace TradingInfrastructure

namespace VenueOrderMap

variable {m m' : VenueOrderMap} {k k' i : ℕ} {v symbol : CString} {exchange : Exchange}

/-- The client order id of an entry in use. -/
def key (e : VenueOrderEntry) : Option ℕ := if e.active then some e.clientOrderId else none

/-- No two entries in use have the same client order id. -/
def Unique (m : VenueOrderMap) : Prop := SlotPool.KeysUnique key m

theorem key_eq_some {e : VenueOrderEntry} :
    key e = some k ↔ e.active = true ∧ e.clientOrderId = k := by
  unfold key
  cases e.active <;> simp

theorem isFor_iff {e : VenueOrderEntry} :
    (e.active && e.clientOrderId == k) = true ↔ key e = some k := by
  rw [key_eq_some]
  simp

/-- The entry that `upsert` writes. -/
def entry (k : ℕ) (v : CString) (exchange : Exchange) (symbol : CString) : VenueOrderEntry :=
  { clientOrderId := k, venueOrderId := strncpyBuf 48 v, exchange := exchange,
    symbol := copySymbol symbol, active := true }

/-- The slot that `upsert` writes to: that of the order, or the first free one. -/
theorem upsert_spec (h : m.upsert k v exchange symbol = some m') :
    ∃ i a, m[i]? = some a ∧ m' = (m.modify i fun _ => entry k v exchange symbol) ∧
      ((m.find k = some i ∧ key a = some k) ∨
        (m.find k = none ∧ m.findFreeSlot = some i ∧ a.active = false)) := by
  obtain ⟨i, hi, rfl⟩ := Option.map_eq_some_iff.mp h
  cases hfind : m.find k with
  | some n =>
    rw [hfind] at hi
    obtain rfl : n = i := Option.some.inj hi
    obtain ⟨a, ha, hfor, -⟩ := SlotPool.getElem?_of_findIdx? hfind
    exact ⟨n, a, ha, rfl, Or.inl ⟨rfl, isFor_iff.mp hfor⟩⟩
  | none =>
    rw [hfind] at hi
    have hfree : m.findFreeSlot = some i := hi
    obtain ⟨a, ha, hunused, -⟩ := SlotPool.getElem?_of_findIdx? hfree
    exact ⟨i, a, ha, rfl, Or.inr ⟨rfl, hfree, by simpa using hunused⟩⟩

/-- A map that knows the order, or has a free slot, can map it. -/
theorem exists_upsert (h : m.get k ≠ none ∨ m.findFreeSlot ≠ none) (v : CString)
    (exchange : Exchange) (symbol : CString) : ∃ m', m.upsert k v exchange symbol = some m' := by
  cases hfind : m.find k with
  | some i => exact ⟨_, by rw [upsert, hfind]; rfl⟩
  | none =>
    have hget : m.get k = none := by rw [get, hfind]; rfl
    obtain ⟨i, hi⟩ := Option.ne_none_iff_exists'.mp (h.resolve_left (not_not.mpr hget))
    exact ⟨_, by rw [upsert, hfind, hi]; rfl⟩

theorem get_of_find (h : m.find k = some i) : m.get k = m[i]? := by
  obtain ⟨a, ha, -, -⟩ := SlotPool.getElem?_of_findIdx? h
  rw [get, h, Option.map_some, List.getD_eq_getElem?_getD, ha, Option.getD_some]

theorem get_eq_none : m.get k = none ↔ m.find k = none := by
  rw [get, Option.map_eq_none_iff]

/-- A change of a slot that is found for the order neither before nor after. -/
theorem get_modify_of_ne {f : VenueOrderEntry → VenueOrderEntry}
    (hold : ∀ a, m[i]? = some a → key a ≠ some k)
    (hnew : ∀ a, m[i]? = some a → key (f a) ≠ some k) :
    get (m.modify i f) k = m.get k := by
  have hfind : find (m.modify i f) k = m.find k := by
    refine SlotPool.findIdx?_modify_of_eq fun a ha => ?_
    have hb := mt isFor_iff.mp (hold a ha)
    have hb' := mt isFor_iff.mp (hnew a ha)
    rw [Bool.not_eq_true] at hb hb'
    rw [hb, hb']
  cases hn : m.find k with
  | none => rw [get_eq_none.mpr (hfind.trans hn), get_eq_none.mpr hn]
  | some n =>
    rw [get_of_find (hfind.trans hn), get_of_find hn]
    refine List.getElem?_modify_ne f m ?_
    rintro rfl
    obtain ⟨a, ha, hfor, -⟩ := SlotPool.getElem?_of_findIdx? hn
    exact hold a ha (isFor_iff.mp hfor)

/-- **What `upsert` writes is found.** -/
theorem find_upsert_self (h : m.upsert k v exchange symbol = some m') :
    ∃ i, m'.find k = some i ∧ m'[i]? = some (entry k v exchange symbol) := by
  obtain ⟨i, a, ha, rfl, hcases⟩ := upsert_spec h
  have hnew : key (entry k v exchange symbol) = some k := rfl
  refine ⟨i, ?_, by simp [ha]⟩
  rcases hcases with ⟨hfind, hkey⟩ | ⟨hfind, -, -⟩
  · have hsame : find (m.modify i fun _ => entry k v exchange symbol) k = m.find k :=
      SlotPool.findIdx?_modify_of_eq fun b hb => by
        obtain rfl : b = a := Option.some.inj (hb.symm.trans ha)
        rw [isFor_iff.mpr hnew, isFor_iff.mpr hkey]
    rw [hsame, hfind]
  · exact SlotPool.findIdx?_modify_of_none hfind ha (isFor_iff.mpr hnew)

theorem get_upsert_self (h : m.upsert k v exchange symbol = some m') :
    m'.get k = some (entry k v exchange symbol) := by
  obtain ⟨i, hfind, hi⟩ := find_upsert_self h
  rw [get_of_find hfind, hi]

theorem get_upsert_of_ne (h : m.upsert k v exchange symbol = some m') (hne : k' ≠ k) :
    m'.get k' = m.get k' := by
  obtain ⟨i, a, ha, rfl, hcases⟩ := upsert_spec h
  refine get_modify_of_ne (fun b hb hkey => ?_) fun b _ hkey => ?_
  · obtain rfl : b = a := Option.some.inj (hb.symm.trans ha)
    rcases hcases with ⟨-, hk⟩ | ⟨-, -, hinactive⟩
    · exact hne (Option.some.inj (hkey.symm.trans hk))
    · rw [(key_eq_some.mp hkey).1] at hinactive
      cases hinactive
  · exact hne (key_eq_some.mp hkey).2.symm

/-- Writing the same again changes nothing. -/
theorem upsert_upsert (h : m.upsert k v exchange symbol = some m') {v' : CString}
    (hv : strncpyBuf 48 v' = strncpyBuf 48 v) : m'.upsert k v' exchange symbol = some m' := by
  obtain ⟨i, hfind, hi⟩ := find_upsert_self h
  simp only [upsert, hfind, Option.some_or, Option.map_some, hv, Option.some.injEq]
  refine List.ext_getElem? fun n => ?_
  by_cases hn : i = n
  · subst hn
    rw [List.getElem?_modify_eq, hi]
    rfl
  · rw [List.getElem?_modify_ne _ _ hn]

theorem Unique.upsert (hm : m.Unique) (h : m.upsert k v exchange symbol = some m') : m'.Unique := by
  obtain ⟨i, a, ha, rfl, hcases⟩ := upsert_spec h
  refine SlotPool.KeysUnique.modify hm fun b k' _ hk' n c hn hc hkey => ?_
  obtain rfl : k = k' := (key_eq_some.mp hk').2
  rcases hcases with ⟨-, hk⟩ | ⟨hfind, -, -⟩
  · exact hn (hm n i c a k hc ha hkey hk)
  · have hnot := SlotPool.not_of_findIdx?_eq_none hfind (List.mem_of_getElem? hc)
    rw [isFor_iff.mpr hkey] at hnot
    cases hnot

theorem Unique.erase (hm : m.Unique) : (m.erase k).Unique := by
  unfold VenueOrderMap.erase
  split
  · exact SlotPool.KeysUnique.modify_of_key_eq hm fun _ _ => Or.inr rfl
  · exact hm

/-- **What is erased is not found**, as no other entry has its client order id. -/
theorem Unique.get_erase_self (hm : m.Unique) : (m.erase k).get k = none := by
  rw [get_eq_none]
  unfold VenueOrderMap.erase
  cases hfind : m.find k with
  | none => exact hfind
  | some i =>
    obtain ⟨a, ha, hfor, -⟩ := SlotPool.getElem?_of_findIdx? hfind
    refine List.findIdx?_eq_none_iff.mpr fun b hb => ?_
    rw [← Bool.not_eq_true, isFor_iff]
    intro hkey
    obtain ⟨n, hn⟩ := List.mem_iff_getElem?.mp hb
    rcases SlotPool.getElem?_modify_cases hn with ⟨hin, hn⟩ | ⟨-, -, -, rfl⟩
    · exact hin (hm i n a b k ha hn (isFor_iff.mp hfor) hkey)
    · cases hkey

theorem get_erase_of_ne (hne : k' ≠ k) : (m.erase k).get k' = m.get k' := by
  unfold erase
  cases hfind : m.find k with
  | none => rfl
  | some i =>
    obtain ⟨a, ha, hfor, -⟩ := SlotPool.getElem?_of_findIdx? hfind
    refine get_modify_of_ne (fun b hb hkey => ?_) fun b _ hkey => by cases hkey
    obtain rfl : b = a := Option.some.inj (hb.symm.trans ha)
    exact hne (Option.some.inj (hkey.symm.trans (isFor_iff.mp hfor)))

/-- Erasing what was written to a free slot, and writing it again, changes nothing. -/
theorem upsert_erase (hfind : m.find k = none) (h : m.upsert k v exchange symbol = some m')
    {v' : CString} (hv : strncpyBuf 48 v' = strncpyBuf 48 v) :
    (m'.erase k).upsert k v' exchange symbol = some m' := by
  obtain ⟨i, a, ha, hm', hcases⟩ := upsert_spec h
  obtain ⟨hfree, hinactive⟩ : m.findFreeSlot = some i ∧ a.active = false := by
    rcases hcases with ⟨hsome, -⟩ | ⟨-, hfree, hinactive⟩
    · rw [hfind] at hsome
      cases hsome
    · exact ⟨hfree, hinactive⟩
  obtain ⟨n, hn, hentry⟩ := find_upsert_self h
  have hni : n = i := by
    by_contra hne
    obtain ⟨b, hb, hfor, hmem⟩ := SlotPool.getElem?_of_findIdx? hn
    rw [hm', List.getElem?_modify_ne _ _ (Ne.symm hne)] at hb
    rw [SlotPool.not_of_findIdx?_eq_none hfind (List.mem_of_getElem? hb)] at hfor
    cases hfor
  subst hni
  have herase : m'.erase k = m.modify n fun _ => {} := by
    simp only [erase, hn]
    rw [hm', List.modify_modify_eq]
    rfl
  have hnone : find (m.modify n fun _ => {}) k = none := by
    rw [find, SlotPool.findIdx?_modify_of_eq fun b hb => ?_]
    · exact hfind
    · obtain rfl : b = a := Option.some.inj (hb.symm.trans ha)
      simp [hinactive]
  have hslot : findFreeSlot (m.modify n fun _ => {}) = some n := by
    rw [findFreeSlot, SlotPool.findIdx?_modify_of_eq fun b hb => ?_]
    · exact hfree
    · obtain rfl : b = a := Option.some.inj (hb.symm.trans ha)
      simp [hinactive]
  rw [herase, upsert, hnone, hslot, hm', hv]
  simp only [Option.none_or, Option.map_some, List.modify_modify_eq, Option.some.injEq]
  rfl

theorem unique_empty : Unique empty := by
  intro i j a b k ha _ hkey _
  rw [List.eq_of_mem_replicate (List.mem_of_getElem? ha)] at hkey
  cases hkey

end VenueOrderMap

end TradingInfrastructure
