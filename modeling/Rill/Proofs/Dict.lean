import Rill.Proofs.Keys
import Rill.Proofs.Sequence

/-! Dicts in the store, against what was done with them before. -/
namespace Rill

namespace Store

/-- What is done with a dict. -/
inductive DictOp where
  | set (index v : Value)
  | remove (index : Value)
  | get (index : Value)
  | getOrMissing (index : Value)
  | contains (index : Value)

namespace DictOp

/-- The operation on a dict in the store, with what it returns, if anything. -/
def run (id : Nat) : DictOp → Attempt (Option Value)
  | set index v => do
    dictSet id index v
    return none
  | remove index => do return some (← dictRemove id index)
  | get index => dictGet? id index
  | getOrMissing index => do return some (← dictGet id index)
  | contains index => do return some (.bool (← dictContains id index))

def index : DictOp → Value
  | set index _ | remove index | get index | getOrMissing index | contains index => index

/-! ### What a history says -/

section

variable (op : DictOp) (history : List DictOp) (k : Key) (v : Value)

def Sets : Prop := ∃ index, op = set index v ∧ Key.ofValue? index = some k

def Removes : Prop := ∃ index, op = remove index ∧ Key.ofValue? index = some k

/-- The last time that the key was set or removed, it was set to this value. -/
def LastSet : Prop :=
  ∃ before op after, history = before ++ op :: after ∧ op.Sets k v ∧
    ∀ later ∈ after, (∀ w, ¬later.Sets k w) ∧ ¬later.Removes k

/-- The key is not there after this. -/
def Absent : Prop := ∀ v, ¬LastSet history k v

/-- The key was set at this time when it was not there, and has not been removed since. -/
def EnteredAt (time : Nat) : Prop :=
  ∃ before op after v, history = before ++ op :: after ∧ before.length = time ∧ Absent before k ∧
    op.Sets k v ∧ ∀ later ∈ after, ¬later.Removes k

end

section

variable {history : List DictOp} {op : DictOp} {k k' : Key} {v w : Value} {time time' : Nat}

theorem Sets.unique (h : op.Sets k v) (h' : op.Sets k' w) : k = k' ∧ v = w := by
  obtain ⟨index, rfl, hkey⟩ := h
  obtain ⟨index', heq, hkey'⟩ := h'
  cases heq
  exact ⟨Option.some_inj.mp (hkey.symm.trans hkey'), rfl⟩

theorem Removes.unique (h : op.Removes k) (h' : op.Removes k') : k = k' := by
  obtain ⟨index, rfl, hkey⟩ := h
  obtain ⟨index', heq, hkey'⟩ := h'
  cases heq
  exact Option.some_inj.mp (hkey.symm.trans hkey')

theorem Sets.not_removes (h : op.Sets k v) : ¬op.Removes k' := by
  rintro ⟨index', heq, -⟩
  obtain ⟨index, rfl, -⟩ := h
  cases heq

theorem Sets.key (h : op.Sets k v) : Key.ofValue? op.index = some k := by
  obtain ⟨index, rfl, hkey⟩ := h
  exact hkey

theorem Removes.key (h : op.Removes k) : Key.ofValue? op.index = some k := by
  obtain ⟨index, rfl, hkey⟩ := h
  exact hkey

theorem not_lastSet_nil : ¬LastSet [] k v := by
  rintro ⟨before, op, after, heq, -⟩
  simp at heq

/-- One more operation sets the key, or it leaves it alone. -/
theorem lastSet_concat_iff :
    LastSet (history ++ [op]) k v ↔
      op.Sets k v ∨ LastSet history k v ∧ (∀ w, ¬op.Sets k w) ∧ ¬op.Removes k := by
  constructor
  · rintro ⟨before, first, after, heq, hsets, hafter⟩
    induction after using List.reverseRecOn with
    | nil =>
      obtain ⟨-, hlast⟩ := List.append_inj' heq rfl
      cases hlast
      exact .inl hsets
    | append_singleton after last _ =>
      rw [← List.cons_append, ← List.append_assoc] at heq
      obtain ⟨rfl, hlast⟩ := List.append_inj' heq rfl
      cases hlast
      rw [List.forall_mem_append] at hafter
      have hlater := hafter.2 op (List.mem_singleton_self op)
      exact .inr ⟨⟨before, first, after, rfl, hsets, hafter.1⟩, hlater⟩
  · rintro (hsets | ⟨⟨before, first, after, rfl, hsets, hafter⟩, hop⟩)
    · exact ⟨history, op, [], rfl, hsets, List.forall_mem_nil _⟩
    · refine ⟨before, first, after ++ [op], by simp, hsets, ?_⟩
      exact List.forall_mem_append.mpr ⟨hafter, List.forall_mem_singleton.mpr hop⟩

/-- What was set stays until it is removed. -/
theorem not_absent_of_sets {before after : List DictOp} (hsets : op.Sets k v)
    (hafter : ∀ later ∈ after, ¬later.Removes k) : ¬Absent (before ++ op :: after) k := by
  intro habsent
  induction after using List.reverseRecOn with
  | nil => exact habsent v (lastSet_concat_iff.mpr (.inl hsets))
  | append_singleton after last ih =>
    rw [List.forall_mem_append, List.forall_mem_singleton] at hafter
    apply ih hafter.1
    intro w hw
    rw [← List.cons_append, ← List.append_assoc] at habsent
    by_cases hlast : ∃ w, last.Sets k w
    · obtain ⟨w, hlast⟩ := hlast
      exact habsent w (lastSet_concat_iff.mpr (.inl hlast))
    · exact habsent w (lastSet_concat_iff.mpr (.inr ⟨hw, not_exists.mp hlast, hafter.2⟩))

theorem EnteredAt.le (h : EnteredAt history k time) (h' : EnteredAt history k time') :
    time' ≤ time := by
  obtain ⟨before, op, after, v, rfl, rfl, -, hsets, hafter⟩ := h
  obtain ⟨before', op', after', v', heq, rfl, habsent, -, -⟩ := h'
  -- otherwise the first setting is among what came before the other
  rcases List.append_eq_append_iff.mp heq with ⟨between, rfl, hbetween⟩ | ⟨_, rfl, -⟩
  · cases between with
    | nil => simp
    | cons first between =>
      obtain ⟨rfl, rfl⟩ := List.cons.inj hbetween
      exact absurd habsent (not_absent_of_sets hsets (List.forall_mem_append.mp hafter).1)
  · simp

theorem EnteredAt.unique (h : EnteredAt history k time) (h' : EnteredAt history k time') :
    time = time' :=
  Nat.le_antisymm (h'.le h) (h.le h')

theorem EnteredAt.lt_length (h : EnteredAt history k time) : time < history.length := by
  obtain ⟨before, op, after, v, rfl, rfl, -⟩ := h
  simp

theorem EnteredAt.concat (h : EnteredAt history k time) (hop : ¬op.Removes k) :
    EnteredAt (history ++ [op]) k time := by
  obtain ⟨before, first, after, v, rfl, htime, habsent, hsets, hafter⟩ := h
  refine ⟨before, first, after ++ [op], v, by simp, htime, habsent, hsets, ?_⟩
  exact List.forall_mem_append.mpr ⟨hafter, List.forall_mem_singleton.mpr hop⟩

theorem EnteredAt.last (habsent : Absent history k) (hsets : op.Sets k v) :
    EnteredAt (history ++ [op]) k history.length :=
  ⟨history, op, [], v, rfl, rfl, habsent, hsets, List.forall_mem_nil _⟩

end

/-- What a table is after these operations: there is an entry just for the keys that were set and not
removed again, with the value that was set last, and the entries come in the order in which their keys
were entered. -/
structure Recorded (history : List DictOp) (t : Table Key Value) : Prop where
  nodup : t.keys.Nodup
  get?_iff : ∀ k v, t.get? k = some v ↔ LastSet history k v
  entered : ∀ k ∈ t.keys, ∃ time, EnteredAt history k time
  ordered : t.keys.Pairwise fun k k' =>
    ∀ time time', EnteredAt history k time → EnteredAt history k' time' → time < time'

namespace Recorded

variable {history : List DictOp} {op : DictOp} {t : Table Key Value} {k : Key} {v : Value}
  {time : Nat}

theorem nil : Recorded [] Table.empty where
  nodup := List.nodup_nil
  get?_iff _ _ := ⟨nofun, fun h => (not_lastSet_nil h).elim⟩
  entered := List.forall_mem_nil _
  ordered := List.Pairwise.nil

theorem absent_iff (h : Recorded history t) : Absent history k ↔ k ∉ t.keys := by
  rw [Table.mem_keys_iff, not_exists]
  exact forall_congr' fun v => not_congr (h.get?_iff k v).symm

/-- Keys come from the values they were set for. -/
theorem proper (h : Recorded history t) : t.Proper where
  nodup := h.nodup
  key_eq k hk := by
    obtain ⟨v, hv⟩ := Table.mem_keys_iff.mp hk
    obtain ⟨before, op, after, -, hsets, -⟩ := (h.get?_iff k v).mp hv
    exact Key.ofValue?_toValue hsets.key

theorem get?_eq_none_iff (h : Recorded history t) : t.get? k = none ↔ Absent history k := by
  rw [h.absent_iff, Table.get?_eq_none_iff]

/-- Times are kept as long as no key is removed. -/
theorem enteredAt_of_concat (h : Recorded history t) (hk : k ∈ t.keys) (hop : ¬op.Removes k)
    (htime : EnteredAt (history ++ [op]) k time) : EnteredAt history k time := by
  obtain ⟨time', htime'⟩ := h.entered k hk
  rwa [htime.unique (htime'.concat hop)]

theorem ordered_concat {ks : List Key} (h : Recorded history t) (hks : ks.Sublist t.keys)
    (hop : ∀ k ∈ ks, ¬op.Removes k) :
    ks.Pairwise fun k k' => ∀ time time', EnteredAt (history ++ [op]) k time →
      EnteredAt (history ++ [op]) k' time' → time < time' := by
  refine (h.ordered.sublist hks).imp_of_mem fun hk hk' hlt time time' htime htime' => ?_
  exact hlt time time' (h.enteredAt_of_concat (hks.subset hk) (hop _ hk) htime)
    (h.enteredAt_of_concat (hks.subset hk') (hop _ hk') htime')

theorem entered_concat {ks : List Key} (h : Recorded history t) (hks : ks.Sublist t.keys)
    (hop : ∀ k ∈ ks, ¬op.Removes k) : ∀ k ∈ ks, ∃ time, EnteredAt (history ++ [op]) k time := by
  intro k hk
  obtain ⟨time, htime⟩ := h.entered k (hks.subset hk)
  exact ⟨time, htime.concat (hop k hk)⟩

/-- An operation that sets nothing and removes nothing that is there. -/
theorem still (h : Recorded history t) (hsets : ∀ k v, ¬op.Sets k v)
    (hremoves : ∀ k ∈ t.keys, ¬op.Removes k) : Recorded (history ++ [op]) t where
  nodup := h.nodup
  get?_iff k v := by
    rw [lastSet_concat_iff, h.get?_iff]
    constructor
    · intro hlast
      have hk := Table.mem_keys_iff.mpr ⟨v, (h.get?_iff k v).mpr hlast⟩
      exact .inr ⟨hlast, hsets k, hremoves k hk⟩
    · rintro (hset | ⟨hlast, -⟩)
      · exact (hsets k v hset).elim
      · exact hlast
  entered := h.entered_concat (List.Sublist.refl _) hremoves
  ordered := h.ordered_concat (List.Sublist.refl _) hremoves

theorem unhashable (h : Recorded history t) (hop : Key.ofValue? op.index = none) :
    Recorded (history ++ [op]) t := by
  refine h.still ?_ ?_
  · intro k v hset
    rw [hset.key] at hop
    cases hop
  · intro k _ hremove
    rw [hremove.key] at hop
    cases hop

theorem missing (h : Recorded history t) (hsets : ∀ k v, ¬op.Sets k v)
    (hkey : Key.ofValue? op.index = some k) (habsent : Absent history k) :
    Recorded (history ++ [op]) t := by
  refine h.still hsets fun k' hk' hremove => ?_
  have hsame : k' = k := Option.some_inj.mp (hremove.key.symm.trans hkey)
  rw [hsame] at hk'
  exact h.absent_iff.mp habsent hk'

theorem set (h : Recorded history t) (hop : op.Sets k v) :
    Recorded (history ++ [op]) (t.put k v) where
  nodup := Table.nodup_keys_put h.nodup k v
  get?_iff k' w := by
    rw [lastSet_concat_iff]
    by_cases hk : k = k'
    · subst hk
      rw [Table.get?_put_self, Option.some_inj]
      constructor
      · rintro rfl
        exact .inl hop
      · rintro (hset | ⟨-, hnone, -⟩)
        · exact (hop.unique hset).2
        · exact (hnone v hop).elim
    · rw [Table.get?_put_of_ne _ hk, h.get?_iff]
      constructor
      · intro hlast
        exact .inr ⟨hlast, fun _ hset => hk (hop.unique hset).1, hop.not_removes⟩
      · rintro (hset | ⟨hlast, -⟩)
        · exact (hk (hop.unique hset).1).elim
        · exact hlast
  entered := by
    have hold := h.entered_concat (List.Sublist.refl _) fun _ _ => hop.not_removes
    by_cases hk : k ∈ t.keys
    · rwa [Table.keys_put_of_mem v hk]
    · rw [Table.keys_put_of_not_mem v hk, List.forall_mem_append, List.forall_mem_singleton]
      exact ⟨hold, history.length, .last (h.absent_iff.mpr hk) hop⟩
  ordered := by
    have hold := h.ordered_concat (List.Sublist.refl _) fun _ _ => hop.not_removes
    by_cases hk : k ∈ t.keys
    · rwa [Table.keys_put_of_mem v hk]
    · rw [Table.keys_put_of_not_mem v hk, List.pairwise_append]
      refine ⟨hold, List.pairwise_singleton _ _, fun k' hk' => List.forall_mem_singleton.mpr ?_⟩
      intro time time' htime htime'
      rw [htime'.unique (.last (h.absent_iff.mpr hk) hop)]
      exact (h.enteredAt_of_concat hk' hop.not_removes htime).lt_length

theorem remove (h : Recorded history t) (hop : op.Removes k) :
    Recorded (history ++ [op]) (t.erase k) := by
  have hsublist : (t.erase k).keys.Sublist t.keys := by
    rw [Table.keys_erase]
    exact List.filter_sublist
  have hkept (k' : Key) (hk' : k' ∈ (t.erase k).keys) : ¬op.Removes k' := by
    intro hremoves
    rw [Table.keys_erase, List.mem_filter, hop.unique hremoves] at hk'
    simp at hk'
  exact
    { nodup := h.nodup.sublist hsublist
      get?_iff := fun k' w => by
        rw [lastSet_concat_iff, ← h.get?_iff]
        have hsets (w : Value) : ¬op.Sets k' w := fun hset => hset.not_removes hop
        by_cases hk : k = k'
        · subst hk
          simp [Table.get?_erase_self, hsets, hop]
        · have hother : ¬op.Removes k' := fun hremoves => hk (hop.unique hremoves)
          simp [Table.get?_erase_of_ne _ hk, hsets, hother]
      entered := h.entered_concat hsublist hkept
      ordered := h.ordered_concat hsublist hkept }

end Recorded

end DictOp

/-! ### Dicts in the store -/

/-- The store with these entries in a dict. -/
def withDict (s : Store) (id : Nat) (t : Table Key Value) : Store :=
  { s with dicts := s.dicts.setIfInBounds id t }

section

variable {s : Store} {id : Nat}

theorem dict_withDict (h : id < s.dicts.size) (t : Table Key Value) :
    (s.withDict id t).dict id = t := by
  simp [dict, withDict, h]

theorem size_dicts_withDict (s : Store) (id : Nat) (t : Table Key Value) :
    (s.withDict id t).dicts.size = s.dicts.size := Array.size_setIfInBounds

theorem withDict_withDict (s : Store) (id : Nat) (t u : Table Key Value) :
    (s.withDict id t).withDict id u = s.withDict id u := by
  simp [withDict]

theorem withDict_self (s : Store) (id : Nat) : s.withDict id (s.dict id) = s := by
  rw [withDict, dict, setIfInBounds_getD]

theorem modifyDict_eq (s : Store) (id : Nat) (f : Table Key Value → Table Key Value) :
    (modifyDict id f : Attempt Unit) s = .ok () (s.withDict id (f (s.dict id))) := by
  change EStateM.Result.ok () { s with dicts := s.dicts.modify id f } = _
  rw [modify_eq_setIfInBounds _ id f Table.empty]
  rfl

theorem dictKeys_eq (s : Store) (id : Nat) :
    dictKeys id s = (((s.dict id).keys.map Key.toValue).toArray, s) := by
  change ((s.dict id).entries.map fun e => e.1.toValue, s) = _
  rw [Table.keys, List.map_map, ← Array.toList_map, Array.toArray_toList]
  rfl

theorem dictValues_eq (s : Store) (id : Nat) :
    dictValues id s = ((s.dict id).values.toArray, s) := by
  change ((s.dict id).entries.map (·.2), s) = _
  rw [Table.values, ← Array.toList_map, Array.toArray_toList]

variable {index v : Value} {k : Key} {found : Option Value}

theorem key_eq (h : Key.ofValue? index = some k) : key index s = .ok k s := by
  rw [key, h]
  rfl

theorem key_of_none (h : Key.ofValue? index = none) :
    key index s = .error (.fault (.unhashable (s.typeName index))) s := by
  rw [key, h]
  rfl

theorem dictGet?_eq (h : Key.ofValue? index = some k) (hfound : (s.dict id).get? k = found) :
    dictGet? id index s = .ok found s := by
  rw [← hfound]
  exact bind_of_ok (key_eq h)

theorem dictContains_eq (h : Key.ofValue? index = some k) (hfound : (s.dict id).get? k = found) :
    dictContains id index s = .ok found.isSome s := by
  rw [← hfound, ← Table.contains_eq]
  exact bind_of_ok (key_eq h)

theorem dictSet_eq (h : Key.ofValue? index = some k) :
    dictSet id index v s = .ok () (s.withDict id ((s.dict id).put k v)) :=
  (bind_of_ok (key_eq h)).trans (modifyDict_eq s id _)

theorem dictGet_eq (h : Key.ofValue? index = some k) (hv : (s.dict id).get? k = some v) :
    dictGet id index s = .ok v s := by
  rw [dictGet, bind_of_ok (dictGet?_eq h hv)]
  rfl

theorem dictGet_of_none (h : Key.ofValue? index = some k) (hnone : (s.dict id).get? k = none) :
    dictGet id index s = .error (.fault (.keyNotFound (s.repr index))) s := by
  rw [dictGet, bind_of_ok (dictGet?_eq h hnone)]
  rfl

theorem dictRemove_eq (h : Key.ofValue? index = some k) (hv : (s.dict id).get? k = some v) :
    dictRemove id index s = .ok v (s.withDict id ((s.dict id).erase k)) := by
  rw [dictRemove, bind_of_ok (key_eq h), bind_of_ok (get_eq s), hv]
  exact bind_of_ok (modifyDict_eq s id _)

theorem dictRemove_of_none (h : Key.ofValue? index = some k)
    (hnone : (s.dict id).get? k = none) :
    dictRemove id index s = .error (.fault (.keyNotFound (s.repr index))) s := by
  rw [dictRemove, bind_of_ok (key_eq h), bind_of_ok (get_eq s), hnone]
  rfl

end

namespace DictOp

/-- What an operation answers after others. Values that can't be keys are refused; what is not there can
be asked for, but it can't be removed or demanded. -/
inductive Answers (s : Store) (history : List DictOp) : DictOp → Except Fault (Option Value) → Prop
  | unhashable {op : DictOp} (h : Key.ofValue? op.index = none) :
      Answers s history op (.error (.unhashable (s.typeName op.index)))
  | set {index v : Value} {k : Key} (hkey : Key.ofValue? index = some k) :
      Answers s history (set index v) (.ok none)
  | remove {index v : Value} {k : Key} (hkey : Key.ofValue? index = some k)
      (h : LastSet history k v) : Answers s history (remove index) (.ok (some v))
  | get {index v : Value} {k : Key} (hkey : Key.ofValue? index = some k) (h : LastSet history k v) :
      Answers s history (get index) (.ok (some v))
  | getAbsent {index : Value} {k : Key} (hkey : Key.ofValue? index = some k)
      (h : Absent history k) : Answers s history (get index) (.ok none)
  | getOrMissing {index v : Value} {k : Key} (hkey : Key.ofValue? index = some k)
      (h : LastSet history k v) : Answers s history (getOrMissing index) (.ok (some v))
  | missing {op : DictOp} {k : Key} (hop : op = remove op.index ∨ op = getOrMissing op.index)
      (hkey : Key.ofValue? op.index = some k) (h : Absent history k) :
      Answers s history op (.error (.keyNotFound (s.repr op.index)))
  | contains {index v : Value} {k : Key} (hkey : Key.ofValue? index = some k)
      (h : LastSet history k v) : Answers s history (contains index) (.ok (some (.bool true)))
  | containsAbsent {index : Value} {k : Key} (hkey : Key.ofValue? index = some k)
      (h : Absent history k) : Answers s history (contains index) (.ok (some (.bool false)))

section

variable {s : Store} {id : Nat} {history : List DictOp} {op : DictOp}

theorem exists_answers (s : Store) (history : List DictOp) (op : DictOp) :
    ∃ r, Answers s history op r := by
  cases hkey : Key.ofValue? op.index with
  | none => exact ⟨_, .unhashable hkey⟩
  | some k =>
    by_cases hlast : ∃ v, LastSet history k v
    · obtain ⟨v, hlast⟩ := hlast
      cases op with
      | set => exact ⟨_, .set hkey⟩
      | remove => exact ⟨_, .remove hkey hlast⟩
      | get => exact ⟨_, .get hkey hlast⟩
      | getOrMissing => exact ⟨_, .getOrMissing hkey hlast⟩
      | contains => exact ⟨_, .contains hkey hlast⟩
    · have habsent : Absent history k := not_exists.mp hlast
      cases op with
      | set => exact ⟨_, .set hkey⟩
      | remove => exact ⟨_, .missing (.inl rfl) hkey habsent⟩
      | get => exact ⟨_, .getAbsent hkey habsent⟩
      | getOrMissing => exact ⟨_, .missing (.inr rfl) hkey habsent⟩
      | contains => exact ⟨_, .containsAbsent hkey habsent⟩

theorem run_of_unhashable (id : Nat) (h : Key.ofValue? op.index = none) :
    op.run id s = .error (.fault (.unhashable (s.typeName op.index))) s := by
  have hkey := key_of_none (s := s) h
  cases op with
  | set | remove | contains => exact bind_of_error (bind_of_error hkey)
  | get => exact bind_of_error hkey
  | getOrMissing => exact bind_of_error (bind_of_error (bind_of_error hkey))

/-- An operation answers as its history says, and adds itself to it. One that fails leaves all as it
was. -/
theorem run_of_answers {r : Except Fault (Option Value)} (h : Answers s history op r)
    (hs : Recorded history (s.dict id)) :
    ∃ t, outcome (op.run id) s = (r.mapError .fault, s.withDict id t) ∧
      Recorded (history ++ [op]) t ∧ ∀ fault, r = .error fault → s.withDict id t = s := by
  -- only setting and removing make another table
  have hkept (hrun : outcome (op.run id) s = (r.mapError .fault, s))
      (hstill : Recorded (history ++ [op]) (s.dict id)) :
      ∃ t, outcome (op.run id) s = (r.mapError .fault, s.withDict id t) ∧
        Recorded (history ++ [op]) t ∧ ∀ fault, r = .error fault → s.withDict id t = s :=
    ⟨s.dict id, by rwa [withDict_self], hstill, fun _ _ => withDict_self s id⟩
  cases h with
  | unhashable h => exact hkept (outcome_of_error (run_of_unhashable id h)) (hs.unhashable h)
  | set hkey =>
    exact ⟨_, outcome_of_ok (bind_of_ok (dictSet_eq hkey)), hs.set ⟨_, rfl, hkey⟩, nofun⟩
  | remove hkey h =>
    have hv := (hs.get?_iff _ _).mpr h
    exact ⟨_, outcome_of_ok (bind_of_ok (dictRemove_eq hkey hv)), hs.remove ⟨_, rfl, hkey⟩, nofun⟩
  | get hkey h =>
    have hv := (hs.get?_iff _ _).mpr h
    exact hkept (outcome_of_ok (dictGet?_eq hkey hv)) (hs.still nofun nofun)
  | getAbsent hkey h =>
    have hnone := hs.get?_eq_none_iff.mpr h
    exact hkept (outcome_of_ok (dictGet?_eq hkey hnone)) (hs.still nofun nofun)
  | getOrMissing hkey h =>
    have hv := (hs.get?_iff _ _).mpr h
    exact hkept (outcome_of_ok (bind_of_ok (dictGet_eq hkey hv))) (hs.still nofun nofun)
  | missing hop hkey h =>
    have hnone := hs.get?_eq_none_iff.mpr h
    obtain ⟨index, rfl | rfl⟩ : ∃ index, op = remove index ∨ op = getOrMissing index := ⟨_, hop⟩
    · exact hkept (outcome_of_error (bind_of_error (dictRemove_of_none hkey hnone)))
        (hs.missing nofun hkey h)
    · exact hkept (outcome_of_error (bind_of_error (dictGet_of_none hkey hnone)))
        (hs.still nofun nofun)
  | contains hkey h =>
    have hv := (hs.get?_iff _ _).mpr h
    exact hkept (outcome_of_ok (bind_of_ok (dictContains_eq hkey hv))) (hs.still nofun nofun)
  | containsAbsent hkey h =>
    have hnone := hs.get?_eq_none_iff.mpr h
    exact hkept (outcome_of_ok (bind_of_ok (dictContains_eq hkey hnone))) (hs.still nofun nofun)

theorem answers_iff {r r' : Except Fault (Option Value)} (h : Answers s history op r)
    (hs : Recorded history (s.dict id)) : Answers s history op r' ↔ r' = r := by
  constructor
  · intro h'
    obtain ⟨t, hrun, -⟩ := run_of_answers h hs
    obtain ⟨t', hrun', -⟩ := run_of_answers h' hs
    exact mapError_fault_injective (Prod.mk.inj (hrun'.symm.trans hrun)).1
  · rintro rfl
    exact h

theorem attemptAll_recorded (ops : List DictOp) (hid : id < s.dicts.size)
    (hs : Recorded history (s.dict id)) :
    ∃ rs t, attemptAll (ops.map (run id)) s = (rs, s.withDict id t) ∧
      Recorded (history ++ ops) t := by
  induction ops generalizing s history with
  | nil =>
    refine ⟨[], s.dict id, ?_, by rwa [List.append_nil]⟩
    rw [withDict_self]
    rfl
  | cons op ops ih =>
    obtain ⟨r, hr⟩ := exists_answers s history op
    obtain ⟨t, hrun, ht, -⟩ := run_of_answers hr hs
    rw [← dict_withDict hid t] at ht
    obtain ⟨rs, u, hall, hu⟩ := ih (by rwa [size_dicts_withDict]) ht
    rw [withDict_withDict] at hall
    exact ⟨_, u, attemptAll_cons hrun hall, by rwa [List.append_assoc] at hu⟩

end

end DictOp

/-- After any operations, a new dict is what its history says, with entries in the order in which their
keys were entered. It answers any further operation accordingly, and one that fails changes nothing.
Nothing else in the store has changed. -/
theorem dicts_are_ordered_maps {s : Store} {id : Nat} (hnew : s.dicts[id]? = some Table.empty)
    (ops : List DictOp) :
    let u := (attemptAll (ops.map (DictOp.run id)) s).2
    let t := u.dict id
    u = s.withDict id t ∧ DictOp.Recorded ops t ∧
      (∀ op, ∃ r t', (∀ r', DictOp.Answers u ops op r' ↔ r' = r) ∧
        outcome (DictOp.run id op) u = (r.mapError .fault, u.withDict id t') ∧
        DictOp.Recorded (ops ++ [op]) t' ∧ ∀ fault, r = .error fault → u.withDict id t' = u) ∧
      (∀ k v, (k, v) ∈ t.toList ↔ DictOp.LastSet ops k v) ∧ t.size = t.keys.length ∧
      dictKeys id u = ((t.keys.map Key.toValue).toArray, u) ∧
      dictValues id u = (t.values.toArray, u) ∧
      ∀ k v, (k, v) ∈ t.toList → dictGet? id k.toValue u = .ok (some v) u := by
  intro u t
  have hid : id < s.dicts.size := (Array.getElem?_eq_some_iff.mp hnew).1
  have hs : DictOp.Recorded [] (s.dict id) := by
    rw [dict, hnew]
    exact .nil
  obtain ⟨rs, t', hall, ht⟩ := DictOp.attemptAll_recorded ops hid hs
  have hu : u = s.withDict id t' := congrArg Prod.snd hall
  obtain rfl : t = t' := (congrArg (·.dict id) hu).trans (dict_withDict hid t')
  have hentries (k : Key) (v : Value) : (k, v) ∈ t.toList ↔ DictOp.LastSet ops k v := by
    rw [Table.mem_toList_iff ht.nodup]
    exact ht.get?_iff k v
  refine ⟨hu, ht, fun op => ?_, hentries, by simp [Table.size, Table.keys],
    dictKeys_eq u id, dictValues_eq u id, fun k v h => ?_⟩
  · obtain ⟨r, hr⟩ := DictOp.exists_answers u ops op
    obtain ⟨t', hrun, hrecorded, hfails⟩ := DictOp.run_of_answers hr ht
    exact ⟨r, t', fun r' => DictOp.answers_iff hr ht, hrun, hrecorded, hfails⟩
  · have hget : (u.dict id).get? k = some v := (ht.get?_iff k v).mpr ((hentries k v).mp h)
    have hkey := ht.proper.key_eq k (Table.mem_keys_iff.mpr ⟨v, hget⟩)
    exact dictGet?_eq hkey hget

/-- Zeros are one key and so is a NaN, but an integer is another key than the same number as a float;
and what comes back after it was removed comes last. -/
theorem dicts_are_ordered_maps_numbers :
    let s : Store := { empty with dicts := #[Table.empty, Table.empty] }
    let one : Binary64 := ⟨0x3ff0000000000000⟩
    let ops : List DictOp :=
      [.set (.int 1) (.str "a"), .set (.float one) (.str "b"), .set (.float .zero) (.str "c"),
        .set (.float Binary64.zero.neg) (.str "d"), .set (.float .nan) (.str "e"), .remove (.int 1),
        .remove (.int 1), .set (.dict 0) .null, .set (.int 1) (.str "f"),
        .set (.float one) (.str "g"), .getOrMissing .null, .contains (.float .nan)]
    s.dicts[1]? = some Table.empty ∧
      DictOp.Recorded ops (Table.ofList [(.float one, .str "g"), (.float .zero, .str "d"),
        (.float .nan, .str "e"), (.int 1, .str "f")]) := by
  intro s one ops
  have hnew : s.dicts[1]? = some Table.empty := rfl
  obtain ⟨-, hrecorded, -⟩ := dicts_are_ordered_maps hnew ops
  have ht : (attemptAll (ops.map (DictOp.run 1)) s).2.dict 1 =
      Table.ofList [(.float one, .str "g"), (.float .zero, .str "d"), (.float .nan, .str "e"),
        (.int 1, .str "f")] := by decide +kernel
  rw [ht] at hrecorded
  exact ⟨hnew, hrecorded⟩

end Store
end Rill
