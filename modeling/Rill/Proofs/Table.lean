import Mathlib.Data.List.Induction
import Mathlib.Data.List.Nodup
import Rill.Table

/-! Entries of tables: which there are after one is put or erased, and in which order. -/
namespace Rill

theorem find?_modify {α : Type} {p : α → Bool} {f : α → α} {xs : List α} {i : Nat}
    (h : ∀ x, xs[i]? = some x → p x = false ∧ p (f x) = false) :
    (xs.modify i f).find? p = xs.find? p := by
  induction xs generalizing i with
  | nil => simp
  | cons x xs ih =>
    cases i with
    | zero =>
      obtain ⟨hx, hfx⟩ := h x rfl
      simp [hx, hfx]
    | succ i => rw [List.modify_succ_cons, List.find?_cons, List.find?_cons, ih h]

theorem map_modify_of_eq {α β : Type} {f : α → α} {g : α → β} (xs : List α) (i : Nat)
    (h : ∀ x, g (f x) = g x) : (xs.modify i f).map g = xs.map g := by
  induction xs generalizing i with
  | nil => simp
  | cons x xs ih =>
    cases i with
    | zero => simp [h]
    | succ i => simp [ih]

namespace Table

variable {α β : Type} [BEq α]

/-- A key has an entry if it has a position. -/
theorem findIdx?_eq_none_iff {t : Table α β} {key : α} :
    t.entries.findIdx? (·.1 == key) = none ↔ t.get? key = none := by
  simp [get?]

/-- A key that is not there yet comes last. -/
theorem put_of_get?_eq_none {t : Table α β} {key : α} (h : t.get? key = none) (value : β) :
    t.put key value = ⟨t.entries.push (key, value)⟩ := by
  rw [put, findIdx?_eq_none_iff.mpr h]

theorem get?_push (t : Table α β) (key key' : α) (value : β) :
    (Table.mk (t.entries.push (key, value))).get? key' =
      (t.get? key').or (if key == key' then some value else none) := by
  unfold get?
  rw [Array.find?_push]
  cases hfind : t.entries.find? (·.1 == key') with
  | some entry => simp
  | none => by_cases hkey : (key == key') = true <;> simp [hkey]

theorem contains_eq (t : Table α β) (key : α) : t.contains key = (t.get? key).isSome := by
  rw [contains, get?, Option.isSome_map, Array.isSome_find?]

theorem keys_erase (t : Table α β) (key : α) :
    (t.erase key).keys = t.keys.filter fun k => !(k == key) := by
  simp [keys, erase, List.filter_map, Function.comp_def]

theorem ofList_concat (es : List (α × β)) (e : α × β) :
    ofList (es ++ [e]) = (ofList es).put e.1 e.2 := List.foldl_concat ..

variable [LawfulBEq α]

theorem get?_put_self (t : Table α β) (key : α) (v : β) : (t.put key v).get? key = some v := by
  unfold put
  cases hi : t.entries.findIdx? (·.1 == key) with
  | none =>
    dsimp only
    rw [get?_push, findIdx?_eq_none_iff.mp hi]
    simp
  | some i =>
    obtain ⟨hlt, hkey, hbefore⟩ := Array.findIdx?_eq_some_iff_getElem.mp hi
    have hfound {f : α × β → α × β} (hf : ∀ e, f e = (e.1, v)) :
        (t.entries.modify i f).find? (·.1 == key) = some (t.entries[i].1, v) := by
      refine Array.find?_eq_some_iff_getElem.mpr ⟨hkey, i, by simpa using hlt, ?_, ?_⟩
      · rw [Array.getElem_modify, if_pos rfl, hf]
      · intro j hj
        have hne : i ≠ j := Nat.ne_of_gt hj
        simpa [Array.getElem_modify, hne] using hbefore j hj
    dsimp only
    rw [get?, hfound fun _ => rfl]
    rfl

theorem get?_put_of_ne (t : Table α β) {key key' : α} (h : key ≠ key') (v : β) :
    (t.put key v).get? key' = t.get? key' := by
  unfold put
  cases hi : t.entries.findIdx? (·.1 == key) with
  | none =>
    have hkey : (key == key') = false := by simpa using h
    dsimp only
    rw [get?_push, hkey]
    simp
  | some i =>
    obtain ⟨hlt, hkey, -⟩ := Array.findIdx?_eq_some_iff_getElem.mp hi
    have hkey : t.entries[i].1 = key := by simpa using hkey
    -- the entry that is replaced is not the one looked for
    have hother : ∀ e, t.entries.toList[i]? = some e → (e.1 == key') = false := by
      intro e he
      have heq : t.entries[i] = e := by simpa [hlt] using he
      rw [← heq, hkey]
      simpa using h
    have hfind {f : α × β → α × β} (hf : ∀ e, f e = (e.1, v)) :
        (t.entries.toList.modify i f).find? (·.1 == key') =
          t.entries.toList.find? (·.1 == key') := by
      apply find?_modify
      intro e he
      rw [hf]
      exact ⟨hother e he, hother e he⟩
    dsimp only [get?]
    rw [← Array.find?_toList, ← Array.find?_toList, Array.toList_modify, hfind fun _ => rfl]

/-! ### Keys -/

theorem get?_eq_none_iff {t : Table α β} {key : α} : t.get? key = none ↔ key ∉ t.keys := by
  rw [get?, Option.map_eq_none_iff, Array.find?_eq_none, keys, List.mem_map]
  constructor
  · rintro h ⟨e, he, rfl⟩
    exact h e (Array.mem_toList_iff.mp he) (BEq.rfl)
  · intro h e he hkey
    exact h ⟨e, Array.mem_toList_iff.mpr he, eq_of_beq hkey⟩

theorem mem_keys_iff {t : Table α β} {key : α} : key ∈ t.keys ↔ ∃ v, t.get? key = some v := by
  rw [← Option.ne_none_iff_exists', ne_eq, get?_eq_none_iff, not_not]

theorem put_of_not_mem {t : Table α β} {key : α} (v : β) (h : key ∉ t.keys) :
    t.put key v = ⟨t.entries.push (key, v)⟩ :=
  put_of_get?_eq_none (get?_eq_none_iff.mpr h) v

theorem keys_put_of_not_mem {t : Table α β} {key : α} (v : β) (h : key ∉ t.keys) :
    (t.put key v).keys = t.keys ++ [key] := by
  rw [put_of_not_mem v h]
  simp [keys]

/-- A key that is there keeps its place. -/
theorem keys_put_of_mem {t : Table α β} {key : α} (v : β) (h : key ∈ t.keys) :
    (t.put key v).keys = t.keys := by
  unfold put
  split
  · rw [keys, Array.toList_modify]
    exact map_modify_of_eq _ _ fun _ => rfl
  · next hnone => exact absurd h (get?_eq_none_iff.mp (findIdx?_eq_none_iff.mp hnone))

theorem nodup_keys_put {t : Table α β} (h : t.keys.Nodup) (key : α) (v : β) :
    (t.put key v).keys.Nodup := by
  by_cases hkey : key ∈ t.keys
  · rwa [keys_put_of_mem v hkey]
  · rw [keys_put_of_not_mem v hkey]
    exact List.nodup_append.mpr ⟨h, List.nodup_singleton _, by
      rintro a ha b hb rfl
      rw [List.mem_singleton.mp hb] at ha
      exact hkey ha⟩

theorem get?_erase_self (t : Table α β) (key : α) : (t.erase key).get? key = none := by
  rw [get?_eq_none_iff, keys_erase, List.mem_filter]
  simp

theorem get?_erase_of_ne (t : Table α β) {key key' : α} (h : key ≠ key') :
    (t.erase key).get? key' = t.get? key' := by
  have hother (e : α × β) (he : (e.1 == key') = true) : (!(e.1 == key)) = true := by
    rw [eq_of_beq he]
    simpa using h.symm
  have hfind : (t.erase key).entries.find? (·.1 == key') = t.entries.find? (·.1 == key') := by
    rw [erase, Array.find?_filter]
    congr 1
    funext e
    cases he : e.1 == key' with
    | true => simp [hother e he]
    | false => simp
  rw [get?, hfind, get?]

/-- Entries are found by their keys. -/
theorem mem_toList_iff {t : Table α β} (h : t.keys.Nodup) {key : α} {v : β} :
    (key, v) ∈ t.toList ↔ t.get? key = some v := by
  have hfound {w : β} (hw : t.get? key = some w) : (key, w) ∈ t.toList := by
    obtain ⟨e, he, rfl⟩ := Option.map_eq_some_iff.mp hw
    have hkey : e.1 = key := by simpa using Array.find?_some he
    rw [← hkey]
    exact Array.mem_toList_iff.mpr (Array.mem_of_find?_eq_some he)
  refine ⟨fun hmem => ?_, hfound⟩
  obtain ⟨w, hw⟩ := mem_keys_iff.mp (List.mem_map_of_mem hmem)
  have hsame := List.inj_on_of_nodup_map h hmem (hfound hw) rfl
  rw [hw, (Prod.mk.inj hsame).2]

/-! ### Tables from lists -/

/-- Keys keep the order in which they first come. -/
theorem keys_ofList (es : List (α × β)) : (ofList es).keys = (es.map (·.1)).eraseDups := by
  induction es using List.reverseRecOn with
  | nil => rfl
  | append_singleton es e ih =>
    have hmem : e.1 ∈ (ofList es).keys ↔ e.1 ∈ es.map (·.1) := by rw [ih, List.mem_eraseDups]
    rw [ofList_concat, List.map_append, List.eraseDups_append, ← ih]
    by_cases hkey : e.1 ∈ es.map (·.1)
    · rw [keys_put_of_mem _ (hmem.mpr hkey)]
      simp [List.removeAll, hkey]
    · rw [keys_put_of_not_mem _ (mt hmem.mp hkey)]
      simp [List.removeAll, hkey, List.eraseDups_cons]

/-- Of several entries for a key, the last one counts. -/
theorem get?_ofList (es : List (α × β)) (key : α) :
    (ofList es).get? key = es.reverse.lookup key := by
  induction es using List.reverseRecOn with
  | nil => rfl
  | append_singleton es e ih =>
    rw [ofList_concat, List.reverse_append, List.reverse_singleton, List.singleton_append,
      List.lookup_cons]
    by_cases hkey : e.1 = key
    · rw [hkey, get?_put_self, BEq.rfl]
    · rw [get?_put_of_ne _ hkey, ih, beq_eq_false_iff_ne.mpr (Ne.symm hkey)]

/-- Entries with distinct keys stay as they are. -/
theorem ofList_of_nodup {es : List (α × β)} (h : (es.map (·.1)).Nodup) :
    ofList es = ⟨es.toArray⟩ := by
  induction es using List.reverseRecOn with
  | nil => rfl
  | append_singleton es e ih =>
    rw [List.map_append, List.nodup_append] at h
    have hnew : e.1 ∉ (Table.mk es.toArray : Table α β).keys := fun hmem =>
      h.2.2 _ (by simpa [keys] using hmem) e.1 (by simp) rfl
    rw [ofList_concat, ih h.1, put_of_not_mem _ hnew]
    simp

end Table
end Rill
