import Rill.Proofs.Table
import Rill.Store.Dict

/-! Keys of dicts and the values they are. -/
namespace Rill

theorem Key.ofValue?_toValue {v : Value} {k : Key} (h : Key.ofValue? v = some k) :
    Key.ofValue? k.toValue = some k := by
  unfold ofValue? at h
  split at h
  · cases h; rfl
  · cases h; rfl
  · cases h; rfl
  · next x =>
    cases h
    by_cases hx : x.isZero
    · rw [if_pos hx]
      rfl
    · rw [if_neg hx, toValue, ofValue?, if_neg hx]
  · cases h; rfl
  · cases h

/-- The keys of a table are distinct, and each is the key of its value: there is one zero. -/
structure Table.Proper (t : Table Key Value) : Prop where
  nodup : t.keys.Nodup
  key_eq : ∀ k ∈ t.keys, Key.ofValue? k.toValue = some k

namespace Table.Proper

variable {t : Table Key Value}

theorem empty : (Table.empty : Table Key Value).Proper := ⟨List.nodup_nil, List.forall_mem_nil _⟩

theorem put (h : t.Proper) {k : Key} (hk : Key.ofValue? k.toValue = some k) (v : Value) :
    (t.put k v).Proper := by
  refine ⟨nodup_keys_put h.nodup k v, ?_⟩
  by_cases hmem : k ∈ t.keys
  · rw [keys_put_of_mem v hmem]
    exact h.key_eq
  · rw [keys_put_of_not_mem v hmem]
    exact List.forall_mem_append.mpr ⟨h.key_eq, List.forall_mem_singleton.mpr hk⟩

theorem erase (h : t.Proper) (k : Key) : (t.erase k).Proper := by
  have hsub (k' : Key) (hk' : k' ∈ (t.erase k).keys) : k' ∈ t.keys := by
    rw [keys_erase] at hk'
    exact List.mem_of_mem_filter hk'
  refine ⟨?_, fun k' hk' => h.key_eq k' (hsub k' hk')⟩
  rw [keys_erase]
  exact h.nodup.filter _

end Table.Proper

namespace Store

/-- The keys of every dict in the store are distinct, and each is the key of its value. -/
def DictsProper (s : Store) : Prop := ∀ id, (s.dict id).Proper

namespace DictsProper

variable {s : Store}

theorem ofDicts {t : Store} (h : t.dicts = s.dicts) (hs : s.DictsProper) : t.DictsProper := by
  intro id
  rw [dict, h]
  exact hs id

theorem empty : Store.empty.DictsProper := fun _ => .empty

theorem push (hs : s.DictsProper) {entries : Table Key Value} (h : entries.Proper) :
    DictsProper { s with dicts := s.dicts.push entries } := by
  intro id
  have hid := hs id
  unfold dict at hid ⊢
  rw [Array.getElem?_push]
  split
  · exact h
  · exact hid

theorem modify (hs : s.DictsProper) (id : Nat) {f : Table Key Value → Table Key Value}
    (h : ∀ t, t.Proper → (f t).Proper) : DictsProper { s with dicts := s.dicts.modify id f } := by
  intro id'
  have hid := hs id'
  unfold dict at hid ⊢
  rw [Array.getElem?_modify]
  cases hdict : s.dicts[id']? with
  | none =>
    rw [hdict] at hid
    split <;> exact hid
  | some entries =>
    rw [hdict] at hid
    split
    · exact h entries hid
    · exact hid

end DictsProper

/-- The key that an index is found to be is the key of its value. -/
theorem key_proper {v : Value} {k : Key} {s t : Store} (h : key v s = .ok k t) :
    Key.ofValue? k.toValue = some k := by
  unfold key at h
  cases hk : Key.ofValue? v with
  | some k' =>
    rw [hk] at h
    cases h
    exact Key.ofValue?_toValue hk
  | none =>
    rw [hk] at h
    cases h

end Store
end Rill
