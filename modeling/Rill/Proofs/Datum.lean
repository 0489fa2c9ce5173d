import Mathlib.Data.List.Perm.Subperm
import Rill.Render

/-! Values that are plain data as trees, and the texts of these. -/
namespace Rill

/-- Plain data: atoms, and lists and dicts of plain data. -/
inductive Datum where
  | null
  | bool (b : Bool)
  | int (i : Int64)
  | str (s : String)
  | list (elements : List Datum)
  | dict (entries : List (Datum × Datum))

/-- The container as a value. -/
def Container.value : Container → Value
  | .list id => .list id
  | .dict id => .dict id

namespace Datum

mutual

/-- The text of a datum, with strings as literals. -/
def text : Datum → String
  | .null => "null"
  | .bool b => toString b
  | .int i => toString i.toInt
  | .str s => Text.quote s
  | .list ds => "[" ++ ", ".intercalate (texts ds) ++ "]"
  | .dict ds => "\x7b" ++ ", ".intercalate (entryTexts ds) ++ "\x7d"

def texts : List Datum → List String
  | [] => []
  | d :: ds => d.text :: texts ds

def entryTexts : List (Datum × Datum) → List String
  | [] => []
  | (k, d) :: ds => (k.text ++ ": " ++ d.text) :: entryTexts ds

end

end Datum

namespace Store

mutual

/-- In the store, the value is this plain datum. Nothing is inside itself, since a datum is a finite
tree; the keys of a dict are atoms and all different; and the least integer, which has no literal, is
not among the data. -/
inductive Holds (s : Store) : Value → Datum → Prop
  | null : Holds s .null .null
  | bool {b} : Holds s (.bool b) (.bool b)
  | int {i} : Int64.minValue < i → Holds s (.int i) (.int i)
  | str {t} : Holds s (.str t) (.str t)
  | list {id elements ds} : s.lists[id]? = some elements → HoldsAll s elements.toList ds →
      Holds s (.list id) (.list ds)
  | dict {id table ds} : s.dicts[id]? = some table → table.keys.Nodup →
      HoldsEntries s table.toList ds → Holds s (.dict id) (.dict ds)

inductive HoldsAll (s : Store) : List Value → List Datum → Prop
  | nil : HoldsAll s [] []
  | cons {v d vs ds} : Holds s v d → HoldsAll s vs ds → HoldsAll s (v :: vs) (d :: ds)

inductive HoldsEntries (s : Store) : List (Key × Value) → List (Datum × Datum) → Prop
  | nil : HoldsEntries s [] []
  | cons {key k v d es ds} : Holds s key.toValue k → Holds s v d → HoldsEntries s es ds →
      HoldsEntries s ((key, v) :: es) ((k, d) :: ds)

end

variable {s : Store}

mutual

theorem Holds.unique {v : Value} {d e : Datum} (h : s.Holds v d) (h' : s.Holds v e) : d = e := by
  cases h with
  | null | bool | int | str => cases h'; rfl
  | list hid hall =>
    cases h' with
    | list hid' hall' =>
      cases hid.symm.trans hid'
      rw [hall.unique hall']
  | dict hid _ hentries =>
    cases h' with
    | dict hid' _ hentries' =>
      cases hid.symm.trans hid'
      rw [hentries.unique hentries']

theorem HoldsAll.unique {vs : List Value} {ds es : List Datum} (h : s.HoldsAll vs ds)
    (h' : s.HoldsAll vs es) : ds = es := by
  cases h with
  | nil => cases h'; rfl
  | cons hv hvs =>
    cases h' with
    | cons hv' hvs' => rw [hv.unique hv', hvs.unique hvs']

theorem HoldsEntries.unique {es : List (Key × Value)} {ds ds' : List (Datum × Datum)}
    (h : s.HoldsEntries es ds) (h' : s.HoldsEntries es ds') : ds = ds' := by
  cases h with
  | nil => cases h'; rfl
  | cons hk hv hes =>
    cases h' with
    | cons hk' hv' hes' => rw [hk.unique hk', hv.unique hv', hes.unique hes']

end

/-! ### Rendering -/

/-- All containers of a store. -/
def allContainers (s : Store) : List Container :=
  (List.range s.lists.size).map .list ++ (List.range s.dicts.size).map .dict

theorem length_allContainers (s : Store) : s.allContainers.length = s.containers := by
  simp [allContainers, containers]

theorem Holds.mem_allContainers {c : Container} {d : Datum} (h : s.Holds c.value d) :
    c ∈ s.allContainers := by
  cases c with
  | list id =>
    cases h with
    | list hid =>
      have hlt := (Array.getElem?_eq_some_iff.mp hid).1
      exact List.mem_append_left _ (List.mem_map_of_mem (List.mem_range.mpr hlt))
  | dict id =>
    cases h with
    | dict hid =>
      have hlt := (Array.getElem?_eq_some_iff.mp hid).1
      exact List.mem_append_right _ (List.mem_map_of_mem (List.mem_range.mpr hlt))

/-- Containers inside which a datum of the given size can be: different ones, all of greater size. -/
structure Around (s : Store) (active : List Container) (size : Nat) : Prop where
  nodup : active.Nodup
  larger : ∀ c ∈ active, ∃ d, s.Holds c.value d ∧ size < sizeOf d

namespace Around

variable {active : List Container} {c : Container} {d : Datum}

theorem mono {m n : Nat} (h : s.Around active n) (hm : m ≤ n) : s.Around active m := by
  refine ⟨h.nodup, fun c hc => ?_⟩
  obtain ⟨d, hd, hlt⟩ := h.larger c hc
  exact ⟨d, hd, Nat.lt_of_le_of_lt hm hlt⟩

/-- No container is inside itself. -/
theorem not_mem (h : s.Around active (sizeOf d)) (hc : s.Holds c.value d) : c ∉ active := by
  intro hmem
  obtain ⟨e, he, hlt⟩ := h.larger c hmem
  rw [hc.unique he] at hlt
  exact Nat.lt_irrefl _ hlt

theorem cons (h : s.Around active (sizeOf d)) (hc : s.Holds c.value d) {n : Nat}
    (hn : n < sizeOf d) : s.Around (c :: active) n := by
  refine ⟨List.nodup_cons.mpr ⟨h.not_mem hc, h.nodup⟩, ?_⟩
  intro a ha
  rcases List.mem_cons.mp ha with rfl | ha
  · exact ⟨d, hc, hn⟩
  · obtain ⟨e, he, hlt⟩ := h.larger a ha
    exact ⟨e, he, Nat.lt_trans hn hlt⟩

/-- Data do not nest more deeply than there are containers. -/
theorem length_lt (h : s.Around active (sizeOf d)) (hc : s.Holds c.value d) :
    active.length < s.containers := by
  have hnodup : (c :: active).Nodup := List.nodup_cons.mpr ⟨h.not_mem hc, h.nodup⟩
  have hsub : c :: active ⊆ s.allContainers := by
    intro a ha
    rcases List.mem_cons.mp ha with rfl | ha
    · exact hc.mem_allContainers
    · obtain ⟨e, he, -⟩ := h.larger a ha
      exact he.mem_allContainers
  have hle := (List.subperm_of_subset hnodup hsub).length_le
  rwa [length_allContainers] at hle

end Around

/-- The text of a value inside the containers `active`. -/
def textWithin (s : Store) (depth : Nat) (active : List Container) (v : Value) : String :=
  Id.run (s.renderer.value (s.renderer.container depth active) true v)

theorem textWithin_list {depth : Nat} {active : List Container} {id : Nat} (h : .list id ∉ active) :
    s.textWithin (depth + 1) active (.list id) = "[" ++ ", ".intercalate
      ((s.list id).toList.map (s.textWithin depth (.list id :: active))) ++ "]" := by
  have hactive : ¬ active.contains (.list id) = true := by simpa using h
  unfold textWithin
  simp only [Renderer.value]
  rw [Renderer.container, if_neg hactive]
  simp only [bind_pure_comp, Id.run_bind, Id.run_map, List.idRun_mapM]
  rfl

theorem textWithin_dict {depth : Nat} {active : List Container} {id : Nat} (h : .dict id ∉ active) :
    s.textWithin (depth + 1) active (.dict id) = "\x7b" ++ ", ".intercalate
      ((s.dict id).toList.map fun e => s.textWithin depth (.dict id :: active) e.1.toValue ++ ": " ++
        s.textWithin depth (.dict id :: active) e.2) ++ "\x7d" := by
  have hactive : ¬ active.contains (.dict id) = true := by simpa using h
  unfold textWithin
  simp only [Renderer.value]
  rw [Renderer.container, if_neg hactive]
  simp only [bind_pure_comp, Id.run_bind, Id.run_map, List.idRun_mapM]
  rfl

mutual

theorem Holds.textWithin_eq {v : Value} {d : Datum} (h : s.Holds v d) {depth : Nat}
    {active : List Container} (ha : s.Around active (sizeOf d))
    (hdepth : depth + active.length = s.containers + 1) : s.textWithin depth active v = d.text := by
  have hcontainer (c : Container) (hc : s.Holds c.value d) : c ∉ active ∧ ∃ below,
      depth = below + 1 ∧ below + (c :: active).length = s.containers + 1 := by
    have hlt := ha.length_lt hc
    refine ⟨ha.not_mem hc, depth - 1, by omega, ?_⟩
    rw [List.length_cons]
    omega
  cases h with
  | null | bool | int | str => rfl
  | @list id elements ds hid hall =>
    obtain ⟨hnot, below, rfl, hbelow⟩ := hcontainer (.list id) (.list hid hall)
    have hlist : s.list id = elements := by rw [list, hid, Option.getD_some]
    have hin : s.Around (.list id :: active) (sizeOf ds) :=
      ha.cons (c := .list id) (.list hid hall) (by simp)
    rw [textWithin_list hnot, hlist, hall.textWithin_eq hin hbelow, Datum.text]
  | @dict id table ds hid hkeys hentries =>
    obtain ⟨hnot, below, rfl, hbelow⟩ := hcontainer (.dict id) (.dict hid hkeys hentries)
    have hdict : s.dict id = table := by rw [dict, hid, Option.getD_some]
    have hin : s.Around (.dict id :: active) (sizeOf ds) :=
      ha.cons (c := .dict id) (.dict hid hkeys hentries) (by simp)
    rw [textWithin_dict hnot, hdict, hentries.textWithin_eq hin hbelow, Datum.text]

theorem HoldsAll.textWithin_eq {vs : List Value} {ds : List Datum} (h : s.HoldsAll vs ds)
    {depth : Nat} {active : List Container} (ha : s.Around active (sizeOf ds))
    (hdepth : depth + active.length = s.containers + 1) :
    vs.map (s.textWithin depth active) = Datum.texts ds := by
  cases h with
  | nil => rfl
  | cons hv hvs =>
    rw [List.map_cons, hv.textWithin_eq (ha.mono (by simp; omega)) hdepth,
      hvs.textWithin_eq (ha.mono (by simp)) hdepth, Datum.texts]

theorem HoldsEntries.textWithin_eq {es : List (Key × Value)} {ds : List (Datum × Datum)}
    (h : s.HoldsEntries es ds) {depth : Nat} {active : List Container}
    (ha : s.Around active (sizeOf ds)) (hdepth : depth + active.length = s.containers + 1) :
    es.map (fun e => s.textWithin depth active e.1.toValue ++ ": " ++
      s.textWithin depth active e.2) = Datum.entryTexts ds := by
  cases h with
  | nil => rfl
  | cons hk hv hes =>
    rw [List.map_cons, hk.textWithin_eq (ha.mono (by simp; omega)) hdepth,
      hv.textWithin_eq (ha.mono (by simp; omega)) hdepth,
      hes.textWithin_eq (ha.mono (by simp)) hdepth, Datum.entryTexts]

end

/-- A value that is a plain datum is rendered as that datum. -/
theorem Holds.repr_eq {v : Value} {d : Datum} (h : s.Holds v d) : s.repr v = d.text :=
  h.textWithin_eq ⟨List.nodup_nil, by simp⟩ rfl

end Store
end Rill
