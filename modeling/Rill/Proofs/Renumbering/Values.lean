import Mathlib.Data.List.InsertIdx
import Rill.Eval.Evaluator
import Rill.Proofs.Veil

/-! Values where one function more was made, so that the later ones have other numbers. -/
namespace Rill

/-- The number of a function where there is one more at `n`. -/
def skip (n id : Nat) : Nat := if id < n then id else id + 1

theorem skip_of_lt {n id : Nat} (h : id < n) : skip n id = id := if_pos h

theorem skip_of_le {n id : Nat} (h : n ≤ id) : skip n id = id + 1 := if_neg (Nat.not_lt.mpr h)

theorem skip_inj {n id id' : Nat} : skip n id = skip n id' ↔ id = id' := by
  unfold skip
  split <;> split <;> omega

/-- Data in which values can stand. -/
class Carries (α : Type) where
  /-- The data where there is one function more at `n`. -/
  renumber (n : Nat) : α → α
  /-- The functions that values in the data refer to are among the first `k`. -/
  Below (k : Nat) : α → Prop
  mono {j k : Nat} {a : α} : Below j a → j ≤ k → Below k a
  fixed {n : Nat} {a : α} : Below n a → renumber n a = a

export Carries (renumber Below)

namespace Carries

variable {α β κ : Type}

theorem Below.mono [Carries α] {j k : Nat} {a : α} (h : Below j a) (hjk : j ≤ k) : Below k a :=
  Carries.mono h hjk

theorem Below.fixed [Carries α] {n : Nat} {a : α} (h : Below n a) : renumber n a = a :=
  Carries.fixed h

/-- Data without values. -/
@[reducible]
def plain (α : Type) : Carries α where
  renumber _ a := a
  Below _ _ := True
  mono _ _ := trivial
  fixed _ := rfl

instance : Carries Unit := plain Unit
instance : Carries Bool := plain Bool
instance : Carries Nat := plain Nat
instance : Carries String := plain String
instance : Carries Int64 := plain Int64
instance : Carries Key := plain Key

instance [Carries α] : Carries (Option α) where
  renumber n := Option.map (renumber n)
  Below k a := ∀ b, a = some b → Below k b
  mono h hjk b hb := (h b hb).mono hjk
  fixed {n a} h := by
    cases a with
    | none => rfl
    | some b => exact congrArg some (h b rfl).fixed

instance [Carries α] : Carries (Except String α) where
  renumber n := Except.map (renumber n)
  Below k a := ∀ b, a = .ok b → Below k b
  mono h hjk b hb := (h b hb).mono hjk
  fixed {n a} h := by
    cases a with
    | error message => rfl
    | ok b => exact congrArg Except.ok (h b rfl).fixed

instance [Carries α] : Carries (List α) where
  renumber n := List.map (renumber n)
  Below k as := ∀ a ∈ as, Below k a
  mono h hjk a ha := (h a ha).mono hjk
  fixed {n as} h := by
    refine (List.map_congr_left fun a ha => ?_).trans (List.map_id as)
    exact (h a ha).fixed

instance [Carries α] : Carries (Array α) where
  renumber n := Array.map (renumber n)
  Below k as := ∀ a ∈ as, Below k a
  mono h hjk a ha := (h a ha).mono hjk
  fixed {n as} h := by
    refine (Array.map_congr_left fun a ha => ?_).trans (Array.map_id as)
    exact (h a ha).fixed

instance [Carries α] [Carries β] : Carries (α × β) where
  renumber n e := (renumber n e.1, renumber n e.2)
  Below k e := Below k e.1 ∧ Below k e.2
  mono h hjk := ⟨h.1.mono hjk, h.2.mono hjk⟩
  fixed h := Prod.ext h.1.fixed h.2.fixed

/-- Values can stand in the entries of a table, but not in its keys. -/
instance [Carries α] : Carries (Table κ α) where
  renumber n t := ⟨t.entries.map fun (key, v) => (key, renumber n v)⟩
  Below k t := t.All fun _ v => Below k v
  mono h hjk := h.mono fun _ _ hv => hv.mono hjk
  fixed {n t} h := by
    refine congrArg Table.mk ((Array.map_congr_left fun e he => ?_).trans (Array.map_id t.entries))
    exact Prod.ext rfl (h e he).fixed

end Carries

theorem map_modify {α β : Type} (as : Array α) (i : Nat) {φ : α → β} {f : α → α} {g : β → β}
    (h : ∀ a, φ (f a) = g (φ a)) : (as.modify i f).map φ = (as.map φ).modify i g := by
  apply Array.ext_getElem?
  intro j
  rw [Array.getElem?_map, Array.getElem?_modify, Array.getElem?_modify, Array.getElem?_map]
  split
  · cases as[j]? with
    | none => rfl
    | some a => exact congrArg some (h a)
  · rfl

section

variable {α : Type} [Carries α] {n k : Nat}

theorem renumber_list (as : List α) : renumber n as = as.map (renumber n) := rfl

theorem renumber_array (as : Array α) : renumber n as = as.map (renumber n) := rfl

theorem below_nil : Below k ([] : List α) := List.forall_mem_nil _

theorem renumber_length (as : List α) : (renumber n as).length = as.length := List.length_map _

theorem renumber_isEmpty (as : List α) : (renumber n as).isEmpty = as.isEmpty := List.isEmpty_map

theorem renumber_at (as : List α) (i : Nat) : (renumber n as)[i]? = renumber n as[i]? :=
  List.getElem?_map

theorem below_at {as : List α} (h : Below k as) (i : Nat) : Below k as[i]? :=
  fun a ha => h a (List.mem_of_getElem? ha)

theorem renumber_head? (as : List α) : (renumber n as).head? = renumber n as.head? :=
  List.head?_map

theorem renumber_toArray (as : List α) : (renumber n as).toArray = renumber n as.toArray := by
  rw [renumber_array, List.map_toArray, renumber_list]

theorem below_toArray {as : List α} (h : Below k as) : Below k as.toArray :=
  fun a ha => h a (List.mem_toArray.mp ha)

theorem renumber_toList (as : Array α) : (renumber n as).toList = renumber n as.toList :=
  Array.toList_map

theorem below_toList {as : Array α} (h : Below k as) : Below k as.toList :=
  fun a ha => h a (Array.mem_toList_iff.mp ha)

theorem below_cons {a : α} {as : List α} (ha : Below k a) (has : Below k as) : Below k (a :: as) :=
  List.forall_mem_cons.mpr ⟨ha, has⟩

theorem below_of_cons {a : α} {as : List α} (h : Below k (a :: as)) : Below k a ∧ Below k as :=
  List.forall_mem_cons.mp h

theorem renumber_empty : renumber n (#[] : Array α) = #[] := Array.map_empty

theorem below_empty (k : Nat) : Below k (#[] : Array α) := fun _ ha => by simp at ha

theorem below_none (k : Nat) : Below k (none : Option α) := by
  rintro _ ⟨⟩

theorem below_some {a : α} (h : Below k a) : Below k (some a) := by
  rintro _ ⟨⟩
  exact h

theorem renumber_option (a : Option α) : renumber n a = a.map (renumber n) := rfl

theorem renumber_getElem? (as : Array α) (i : Nat) :
    (renumber n as)[i]? = renumber n as[i]? := Array.getElem?_map

theorem below_getElem? {as : Array α} (h : Below k as) (i : Nat) : Below k as[i]? :=
  fun _ ha => h _ (Array.mem_of_getElem? ha)

theorem renumber_size (as : Array α) : (renumber n as).size = as.size := Array.size_map

theorem renumber_push (as : Array α) (a : α) :
    renumber n (as.push a) = (renumber n as).push (renumber n a) := Array.map_push

theorem below_push {as : Array α} {a : α} (h : Below k as) (ha : Below k a) :
    Below k (as.push a) :=
  Array.forall_mem_push.mpr ⟨ha, h⟩

theorem renumber_append (as bs : Array α) :
    renumber n (as ++ bs) = renumber n as ++ renumber n bs := Array.map_append

theorem below_append {as bs : Array α} (h : Below k as) (h' : Below k bs) :
    Below k (as ++ bs) := fun a ha => (Array.mem_append.mp ha).elim (h a) (h' a)

theorem renumber_modify (as : Array α) (i : Nat) {f g : α → α}
    (h : ∀ a, renumber n (f a) = g (renumber n a)) :
    renumber n (as.modify i f) = (renumber n as).modify i g :=
  map_modify as i h

theorem below_modify {as : Array α} (h : Below k as) (i : Nat) {f : α → α}
    (hf : ∀ a, Below k a → Below k (f a)) : Below k (as.modify i f) :=
  forall_mem_modify h hf i

theorem renumber_setIfInBounds (as : Array α) (i : Nat) (a : α) :
    renumber n (as.setIfInBounds i a) = (renumber n as).setIfInBounds i (renumber n a) :=
  Array.map_setIfInBounds

theorem below_setIfInBounds {as : Array α} {a : α} (h : Below k as) (ha : Below k a) (i : Nat) :
    Below k (as.setIfInBounds i a) := by
  intro b hb
  rcases Array.mem_or_eq_of_mem_setIfInBounds hb with hb | rfl
  · exact h b hb
  · exact ha

theorem renumber_back? (as : Array α) : (renumber n as).back? = renumber n as.back? :=
  Array.back?_map

theorem below_back? {as : Array α} (h : Below k as) : Below k as.back? :=
  fun _ ha => h _ (Array.mem_of_back? ha)

theorem renumber_pop (as : Array α) : renumber n as.pop = (renumber n as).pop := Array.map_pop

theorem below_pop {as : Array α} (h : Below k as) : Below k as.pop := by
  intro a ha
  obtain ⟨i, hi, rfl⟩ := Array.mem_iff_getElem.mp ha
  rw [Array.getElem_pop]
  exact h _ (Array.getElem_mem _)

theorem renumber_insertIdxIfInBounds (as : Array α) (i : Nat) (a : α) :
    renumber n (as.insertIdxIfInBounds i a) =
      (renumber n as).insertIdxIfInBounds i (renumber n a) := by
  unfold Array.insertIdxIfInBounds
  by_cases h : i ≤ as.size
  · have h' : i ≤ (renumber n as).size := by rwa [renumber_size]
    rw [dif_pos h, dif_pos h']
    apply Array.ext'
    rw [renumber_array, Array.toList_map, Array.toList_insertIdx, Array.toList_insertIdx,
      List.map_insertIdx, renumber_array, Array.toList_map]
  · have h' : ¬ i ≤ (renumber n as).size := by rwa [renumber_size]
    rw [dif_neg h, dif_neg h']

theorem below_insertIdxIfInBounds {as : Array α} {a : α} (h : Below k as) (ha : Below k a)
    (i : Nat) : Below k (as.insertIdxIfInBounds i a) := by
  intro b hb
  unfold Array.insertIdxIfInBounds at hb
  split at hb
  · rcases Array.mem_insertIdx.mp hb with rfl | hb
    · exact ha
    · exact h b hb
  · exact h b hb

theorem renumber_eraseIdxIfInBounds (as : Array α) (i : Nat) :
    renumber n (as.eraseIdxIfInBounds i) = (renumber n as).eraseIdxIfInBounds i := by
  unfold Array.eraseIdxIfInBounds
  by_cases h : i < as.size
  · have h' : i < (renumber n as).size := by rwa [renumber_size]
    rw [dif_pos h, dif_pos h']
    apply Array.ext'
    rw [renumber_array, Array.toList_map, Array.toList_eraseIdx, Array.toList_eraseIdx,
      renumber_array, Array.toList_map, List.eraseIdx_map]
  · have h' : ¬ i < (renumber n as).size := by rwa [renumber_size]
    rw [dif_neg h, dif_neg h']

theorem below_eraseIdxIfInBounds {as : Array α} (h : Below k as) (i : Nat) :
    Below k (as.eraseIdxIfInBounds i) := by
  intro a ha
  unfold Array.eraseIdxIfInBounds at ha
  split at ha
  · exact h a (Array.mem_of_mem_eraseIdx ha)
  · exact h a ha

end

theorem renumber_texts {n : Nat} (texts : List String) : renumber n texts = texts :=
  List.map_id texts

namespace Table

variable {α κ : Type} [Carries α] {n k : Nat}

theorem renumber_table (t : Table κ α) :
    renumber n t = ⟨t.entries.map fun (key, v) => (key, renumber n v)⟩ := rfl

theorem renumber_entries (t : Table κ α) :
    (renumber n t).entries = t.entries.map fun (key, v) => (key, renumber n v) := rfl

theorem toList_renumber (t : Table κ α) :
    (renumber n t).toList = t.toList.map fun (key, v) => (key, renumber n v) := Array.toList_map

theorem size_renumber (t : Table κ α) : (renumber n t).size = t.size := Array.size_map

theorem empty_renumber : renumber n (empty : Table κ α) = empty := by
  rw [empty, renumber_table, Array.map_empty]

variable [BEq κ]

theorem get?_renumber (t : Table κ α) (key : κ) :
    (renumber n t).get? key = renumber n (t.get? key) := by
  rw [get?, renumber_entries, Array.find?_map, get?, renumber_option, Option.map_map,
    Option.map_map]
  rfl

theorem contains_renumber (t : Table κ α) (key : κ) :
    (renumber n t).contains key = t.contains key := Array.any_map

theorem put_renumber (t : Table κ α) (key : κ) (v : α) :
    renumber n (t.put key v) = (renumber n t).put key (renumber n v) := by
  have hfind : (renumber n t).entries.findIdx? (·.1 == key) = t.entries.findIdx? (·.1 == key) :=
    Array.findIdx?_map
  unfold put
  rw [hfind]
  cases t.entries.findIdx? (·.1 == key) with
  | none => exact congrArg mk Array.map_push
  | some i =>
    have hmodify : (t.entries.modify i fun e => (e.1, v)).map (fun e => (e.1, renumber n e.2)) =
        (t.entries.map fun e => (e.1, renumber n e.2)).modify i fun e => (e.1, renumber n v) :=
      map_modify t.entries i fun _ => rfl
    exact congrArg mk hmodify

theorem erase_renumber (t : Table κ α) (key : κ) :
    renumber n (t.erase key) = (renumber n t).erase key := by
  unfold erase
  rw [renumber_entries, Array.filter_map]
  rfl

theorem ofList_renumber (entries : List (κ × α)) :
    renumber n (ofList entries) = ofList (entries.map fun (key, v) => (key, renumber n v)) := by
  have hfold (t : Table κ α) :
      renumber n (entries.foldl (fun t (key, v) => t.put key v) t) =
        (entries.map fun (key, v) => (key, renumber n v)).foldl (fun t (key, v) => t.put key v)
          (renumber n t) := by
    induction entries generalizing t with
    | nil => rfl
    | cons e es ih =>
      rw [List.foldl_cons, ih, put_renumber]
      rfl
  have hentries := hfold empty
  rwa [empty_renumber] at hentries

end Table

namespace Value

def renumber (n : Nat) : Value → Value
  | function id => function (skip n id)
  | bound f receiver => bound f (receiver.renumber n)
  | item id inner => item id (inner.renumber n)
  | v => v

def Below (k : Nat) : Value → Prop
  | function id => id < k
  | bound _ receiver => receiver.Below k
  | item _ inner => inner.Below k
  | _ => True

theorem Below.mono {j k : Nat} {v : Value} (h : v.Below j) (hjk : j ≤ k) : v.Below k := by
  induction v with
  | function id => exact Nat.lt_of_lt_of_le h hjk
  | bound f receiver ih => exact ih h
  | item id inner ih => exact ih h
  | _ => trivial

theorem Below.fixed {n : Nat} {v : Value} (h : v.Below n) : v.renumber n = v := by
  induction v with
  | function id => exact congrArg function (skip_of_lt h)
  | bound f receiver ih => exact congrArg (bound f) (ih h)
  | item id inner ih => exact congrArg (item id) (ih h)
  | _ => rfl

instance : Carries Value := ⟨renumber, Below, Below.mono, Below.fixed⟩

/-- Equality does not see numbers. -/
theorem same_renumber (n : Nat) (v w : Value) : (v.renumber n).same (w.renumber n) = v.same w := by
  induction v generalizing w with
  | function id =>
    cases w with
    | function id' =>
      have hid : (skip n id == skip n id') = (id == id') := by
        rw [Bool.eq_iff_iff, beq_iff_eq, beq_iff_eq, skip_inj]
      exact hid
    | _ => rfl
  | bound f receiver ih =>
    cases w with
    | bound g receiver' => exact congrArg (decide (f = g) && ·) (ih receiver')
    | _ => rfl
  | _ => cases w <;> rfl

theorem ofValue?_renumber (n : Nat) (v : Value) : Key.ofValue? (v.renumber n) = Key.ofValue? v := by
  cases v <;> rfl

end Value

theorem Key.toValue_renumber (n : Nat) (key : Key) : renumber n key.toValue = key.toValue := by
  cases key <;> rfl

theorem Key.below_toValue (k : Nat) (key : Key) : Below k key.toValue := by
  cases key <;> trivial

instance : Carries Signal where
  renumber n
    | .returned v => .returned (renumber n v)
    | signal => signal
  Below k signal := ∀ v, signal = .returned v → Below k v
  mono h hjk v hv := (h v hv).mono hjk
  fixed {n signal} h := by
    cases signal with
    | returned v => exact congrArg Signal.returned (h v rfl).fixed
    | _ => rfl

instance : Carries Function where
  renumber n f := { f with receiver := renumber n f.receiver }
  Below k f := Below k f.receiver
  mono h hjk := h.mono hjk
  fixed {n f} h := by
    obtain ⟨decl, closure, receiver, isMethod⟩ := f
    exact congrArg (Function.mk decl closure · isMethod) h.fixed

instance : Carries Class where
  renumber n c := { c with attributes := renumber n c.attributes }
  Below k c := Below k c.attributes
  mono h hjk := h.mono hjk
  fixed {n c} h := by
    obtain ⟨name, attributes, superclass⟩ := c
    exact congrArg (Class.mk name · superclass) h.fixed

instance : Carries Instance where
  renumber n o := { o with fields := renumber n o.fields }
  Below k o := Below k o.fields
  mono h hjk := h.mono hjk
  fixed {_ o} h := congrArg (Instance.mk o.type) h.fixed

instance : Carries Module where
  renumber n k := { k with attributes := renumber n k.attributes }
  Below j k := Below j k.attributes
  mono h hjk := h.mono hjk
  fixed {_ k} h := congrArg (Module.mk k.name) h.fixed

end Rill
