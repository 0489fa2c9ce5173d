import Rill.Proofs.Datum.Reread
import Rill.Proofs.Dict
import Rill.Proofs.Rendering

/-! Values on the way to the host and back. -/
namespace Rill

open Store (Attempt Grows Trouble)

namespace HostValue

/-! ### What a host value means -/

/-- The key that a host value converts to, if it can be one. -/
def key? : HostValue → Option Key
  | none => some .null
  | bool b => some (.bool b)
  | int i => some (.int i)
  | float x => Key.ofValue? (.float x)
  | string s => some (.str s)
  | opaqueValue v => Key.ofValue? v
  | sequence _ | mapping _ => Option.none

/-- The host values that a host value consists of. -/
def parts : HostValue → List HostValue
  | sequence hs => hs
  | mapping es => es.flatMap fun (k, h) => [k, h]
  | _ => []

/-- Whether a host value is somewhere in a host value, or is that value itself. -/
abbrev Contains : HostValue → HostValue → Prop := Relation.ReflTransGen fun h part => part ∈ h.parts

/-- Whether all keys of mappings, however deep inside, can be keys of dicts. -/
def Fit (h : HostValue) : Prop := ∀ es, h.Contains (mapping es) → ∀ e ∈ es, ∃ k, e.1.key? = some k

def FitEntry (e : HostValue × HostValue) : Prop := e.1.Fit ∧ (∃ k, e.1.key? = some k) ∧ e.2.Fit

mutual

/-- In the store, the value is what the host value means: sequences are lists, and mappings are dicts in
which one entry after another was put. -/
inductive Stands (t : Store) : HostValue → Value → Prop
  | none : Stands t none .null
  | bool (b : Bool) : Stands t (bool b) (.bool b)
  | int (i : Int64) : Stands t (int i) (.int i)
  | float (x : Binary64) : Stands t (float x) (.float x)
  | string (s : String) : Stands t (string s) (.str s)
  | sequence {hs : List HostValue} {id : Nat} {elements : Array Value}
      (hid : t.lists[id]? = some elements) (hall : StandsAll t hs elements.toList) :
      Stands t (sequence hs) (.list id)
  | mapping {es : List (HostValue × HostValue)} {id : Nat} {pairs : List (Key × Value)}
      (hid : t.dicts[id]? = some (Table.ofList pairs)) (hall : StandsEntries t es pairs) :
      Stands t (mapping es) (.dict id)
  | opaqueValue (v : Value) : Stands t (opaqueValue v) v

inductive StandsAll (t : Store) : List HostValue → List Value → Prop
  | nil : StandsAll t [] []
  | cons {h : HostValue} {v : Value} {hs : List HostValue} {vs : List Value} (hv : Stands t h v)
      (hvs : StandsAll t hs vs) : StandsAll t (h :: hs) (v :: vs)

inductive StandsEntries (t : Store) : List (HostValue × HostValue) → List (Key × Value) → Prop
  | nil : StandsEntries t [] []
  | cons {k h : HostValue} {index v : Value} {key : Key} {es : List (HostValue × HostValue)}
      {pairs : List (Key × Value)} (hindex : Stands t k index) (hkey : Key.ofValue? index = some key)
      (hv : Stands t h v) (hes : StandsEntries t es pairs) :
      StandsEntries t ((k, h) :: es) ((key, v) :: pairs)

end

section

variable {s t : Store}

mutual

theorem Stands.mono {h : HostValue} {v : Value} (hv : Stands s h v) (hst : s.Grows t) :
    Stands t h v := by
  cases hv with
  | none => exact .none
  | bool => exact .bool _
  | int => exact .int _
  | float => exact .float _
  | string => exact .string _
  | sequence hid hall => exact .sequence (hst.lists hid) (hall.mono hst)
  | mapping hid hall => exact .mapping (hst.dicts hid) (hall.mono hst)
  | opaqueValue => exact .opaqueValue _

theorem StandsAll.mono {hs : List HostValue} {vs : List Value} (hvs : StandsAll s hs vs)
    (hst : s.Grows t) : StandsAll t hs vs := by
  cases hvs with
  | nil => exact .nil
  | cons hv hvs => exact .cons (hv.mono hst) (hvs.mono hst)

theorem StandsEntries.mono {es : List (HostValue × HostValue)} {pairs : List (Key × Value)}
    (hes : StandsEntries s es pairs) (hst : s.Grows t) : StandsEntries t es pairs := by
  cases hes with
  | nil => exact .nil
  | cons hindex hkey hv hes => exact .cons (hindex.mono hst) hkey (hv.mono hst) (hes.mono hst)

end

theorem Stands.key? {h : HostValue} {v : Value} (hv : Stands t h v) :
    h.key? = Key.ofValue? v := by
  cases hv <;> rfl

end

/-! ### Fitness of the parts -/

section

variable {h : HostValue} {hs : List HostValue} {es : List (HostValue × HostValue)}

theorem fit_of_parts_eq_nil (hparts : h.parts = []) (hmapping : ∀ e es, h ≠ mapping (e :: es)) :
    h.Fit := by
  intro es hes e he
  rcases hes.cases_head with rfl | ⟨part, hpart, -⟩
  · cases es with
    | nil => cases he
    | cons e es => exact (hmapping e es rfl).elim
  · rw [hparts] at hpart
    cases hpart

theorem fit_sequence_iff : (sequence hs).Fit ↔ ∀ h ∈ hs, h.Fit := by
  constructor
  · intro hfit h hmem es hes
    exact hfit es (.head hmem hes)
  · intro hfit es hes
    rcases hes.cases_head with heq | ⟨part, hpart, hes⟩
    · cases heq
    · exact hfit part hpart es hes

theorem fit_mapping_iff : (mapping es).Fit ↔ ∀ e ∈ es, FitEntry e := by
  constructor
  · intro hfit e he
    have hkey : e.1 ∈ (mapping es).parts := List.mem_flatMap.mpr ⟨e, he, by simp⟩
    have hvalue : e.2 ∈ (mapping es).parts := List.mem_flatMap.mpr ⟨e, he, by simp⟩
    exact ⟨fun fs hfs => hfit fs (.head hkey hfs), hfit es .refl e he,
      fun fs hfs => hfit fs (.head hvalue hfs)⟩
  · intro hfit fs hfs
    rcases hfs.cases_head with heq | ⟨part, hpart, hfs⟩
    · cases heq
      exact fun e he => (hfit e he).2.1
    · obtain ⟨e, he, hpart⟩ := List.mem_flatMap.mp hpart
      obtain ⟨hkey, -, hvalue⟩ := hfit e he
      rcases List.mem_pair.mp hpart with rfl | rfl
      · exact hkey fs hfs
      · exact hvalue fs hfs

end

/-! ### Making values -/

/-- How an attempt ends: with a good result if all is `fit`, and otherwise because something can't be a
key. What was in the store stays there. -/
def Ends {α : Type} (fit : Prop) (Q : Store → α → Prop) (s : Store) :
    EStateM.Result Trouble Store α → Prop
  | .ok a t => fit ∧ s.Grows t ∧ Q t a
  | .error trouble t => ¬fit ∧ s.Grows t ∧ ∃ name, trouble = .fault (.unhashable name)

namespace Ends

variable {α β : Type} {p q : Prop} {Q : Store → α → Prop} {R : Store → β → Prop} {s : Store}

theorem of_iff {x : EStateM.Result Trouble Store α} (h : Ends p Q s x) (hpq : p ↔ q) :
    Ends q Q s x := by
  rwa [propext hpq] at h

theorem imp {R : Store → α → Prop} {x : EStateM.Result Trouble Store α} (h : Ends p Q s x)
    (hqr : ∀ a t, s.Grows t → Q t a → R t a) : Ends p R s x := by
  cases x with
  | ok a t => exact ⟨h.1, h.2.1, hqr a t h.2.1 h.2.2⟩
  | error trouble t => exact h

theorem plain {h : HostValue} {v : Value} (hv : Stands s h v) (hfit : h.Fit) :
    Ends h.Fit (fun t v => Stands t h v) s ((Pure.pure v : Attempt Value) s) :=
  ⟨hfit, .refl s, hv⟩

theorem pure {a : α} (h : Q s a) : Ends True Q s ((Pure.pure a : Attempt α) s) :=
  ⟨trivial, .refl s, h⟩

theorem bind {x : Attempt α} {f : α → Attempt β} (hx : Ends p Q s (x s))
    (hf : ∀ a t, s.Grows t → Q t a → Ends q R t (f a t)) : Ends (p ∧ q) R s ((x >>= f) s) := by
  cases hxs : x s with
  | ok a t =>
    rw [hxs] at hx
    obtain ⟨hp, hst, hqa⟩ := hx
    rw [bind_of_ok hxs]
    have hfa := hf a t hst hqa
    cases hfat : f a t with
    | ok b u =>
      rw [hfat] at hfa
      obtain ⟨hq, htu, hr⟩ := hfa
      exact ⟨⟨hp, hq⟩, hst.trans htu, hr⟩
    | error trouble u =>
      rw [hfat] at hfa
      obtain ⟨hq, htu, hname⟩ := hfa
      exact ⟨fun hpq => hq hpq.2, hst.trans htu, hname⟩
  | error trouble t =>
    rw [hxs] at hx
    obtain ⟨hp, hst, hname⟩ := hx
    rw [bind_of_error hxs]
    exact ⟨fun hpq => hp hpq.1, hst, hname⟩

theorem newList {elements : Array Value} {hs : List HostValue}
    (h : StandsAll s hs elements.toList) :
    Ends True (fun t v => Stands t (sequence hs) v) s
      ((Store.newList elements : Attempt Value) s) := by
  have hgrows := Grows.push_list s elements
  exact ⟨trivial, hgrows, .sequence (Array.getElem?_push_size) (h.mono hgrows)⟩

theorem newDict {pairs : List (Key × Value)} {es : List (HostValue × HostValue)}
    (h : StandsEntries s es pairs) :
    Ends True (fun t v => Stands t (mapping es) v) s
      ((Store.newDict (Table.ofList pairs) : Attempt Value) s) := by
  have hgrows := Grows.push_dict s (Table.ofList pairs)
  exact ⟨trivial, hgrows, .mapping (Array.getElem?_push_size) (h.mono hgrows)⟩

theorem key (v : Value) :
    Ends (∃ k, Key.ofValue? v = some k) (fun _ k => Key.ofValue? v = some k) s (Store.key v s) := by
  cases hkey : Key.ofValue? v with
  | none =>
    rw [Store.key_of_none hkey]
    exact ⟨by simp, .refl s, _, rfl⟩
  | some k =>
    rw [Store.key_eq hkey]
    exact ⟨⟨k, rfl⟩, .refl s, rfl⟩

end Ends

mutual

theorem toValue_ends (s : Store) : (h : HostValue) →
    Ends h.Fit (fun t v => Stands t h v) s (h.toValue s)
  | none => .plain .none (fit_of_parts_eq_nil rfl nofun)
  | bool b => .plain (.bool b) (fit_of_parts_eq_nil rfl nofun)
  | int i => .plain (.int i) (fit_of_parts_eq_nil rfl nofun)
  | float x => .plain (.float x) (fit_of_parts_eq_nil rfl nofun)
  | string t => .plain (.string t) (fit_of_parts_eq_nil rfl nofun)
  | opaqueValue v => .plain (.opaqueValue v) (fit_of_parts_eq_nil rfl nofun)
  | sequence hs => by
    have hfit : (∀ h ∈ hs, h.Fit) ∧ True ↔ (sequence hs).Fit := by rw [and_true, fit_sequence_iff]
    exact .of_iff (.bind (toValues_ends s hs) fun vs t _ hvs => .newList hvs) hfit
  | mapping es => by
    refine .of_iff (.bind (toTable_ends s Table.empty es) fun table t _ h => ?_)
      ((and_true _).to_iff.trans fit_mapping_iff.symm)
    obtain ⟨pairs, hpairs, rfl⟩ := h
    exact .newDict hpairs

theorem toValues_ends (s : Store) : (hs : List HostValue) →
    Ends (∀ h ∈ hs, h.Fit) (fun t vs => StandsAll t hs vs) s (toValues hs s)
  | [] => (Ends.pure .nil).of_iff (by simp)
  | h :: hs => by
    refine .of_iff (.bind (toValue_ends s h) fun v t _ hv => .bind (toValues_ends t hs)
      fun vs u htu hvs => .pure (.cons (hv.mono htu) hvs)) ?_
    rw [and_true, List.forall_mem_cons]

theorem toTable_ends (s : Store) (table : Table Key Value) : (es : List (HostValue × HostValue)) →
    Ends (∀ e ∈ es, FitEntry e) (fun t table' => ∃ pairs, StandsEntries t es pairs ∧
      table' = pairs.foldl (fun t (key, v) => t.put key v) table) s (toTable table es s)
  | [] => (Ends.pure ⟨[], .nil, rfl⟩).of_iff (by simp)
  | (k, h) :: es => by
    have hfit : k.Fit ∧ (∃ key, k.key? = some key) ∧ h.Fit ∧ (∀ e ∈ es, FitEntry e) ↔
        ∀ e ∈ (k, h) :: es, FitEntry e := by
      rw [List.forall_mem_cons, FitEntry, and_assoc, and_assoc]
    refine .of_iff (.bind (toValue_ends s k) fun index t _ hindex => ?_) hfit
    rw [hindex.key?]
    refine .bind (.key index) fun key u htu hkey => .bind (toValue_ends u h) fun v w huw hv => ?_
    refine .imp (toTable_ends w (table.put key v) es) fun table' x hwx ⟨pairs, hpairs, htable⟩ => ?_
    exact ⟨(key, v) :: pairs,
      .cons (hindex.mono (htu.trans (huw.trans hwx))) hkey (hv.mono hwx) hpairs, htable⟩

end

variable {h : HostValue} (s : Store)

theorem toValue_of_fit (hfit : h.Fit) : ∃ v t, h.toValue s = .ok v t ∧ s.Grows t ∧ Stands t h v := by
  have hends := toValue_ends s h
  cases hvalue : h.toValue s with
  | ok v t =>
    rw [hvalue] at hends
    exact ⟨v, t, rfl, hends.2⟩
  | error trouble t =>
    rw [hvalue] at hends
    exact absurd hfit hends.1

theorem toValue_of_not_fit (hfit : ¬h.Fit) :
    ∃ name t, h.toValue s = .error (.fault (.unhashable name)) t ∧ s.Grows t := by
  have hends := toValue_ends s h
  cases hvalue : h.toValue s with
  | ok v t =>
    rw [hvalue] at hends
    exact absurd hends.1 hfit
  | error trouble t =>
    rw [hvalue] at hends
    obtain ⟨-, hgrows, name, rfl⟩ := hends
    exact ⟨name, t, rfl, hgrows⟩

end HostValue

/-! ### There and back -/

namespace Store

/-- The values that are in a list or dict. -/
def elements (s : Store) : Value → List Value
  | .list id => (s.list id).toList
  | .dict id => (s.dict id).values
  | _ => []

def Element (s : Store) (whole part : Value) : Prop := part ∈ s.elements whole

/-- No list or dict in the value is inside itself. -/
def Grounded (s : Store) (v : Value) : Prop :=
  ∀ w, Relation.ReflTransGen s.Element v w → ¬Relation.TransGen s.Element w w

/-- The second value, in the second store, is made like the first one: from lists and dicts of the same
shape, with the same keys, and from the very same values otherwise. -/
inductive Copies (s t : Store) : Value → Value → Prop
  | plain {v : Value} (h : ∀ c : Container, v ≠ c.value) : Copies s t v v
  | list {id copy : Nat} {elements : Array Value} (hcopy : t.lists[copy]? = some elements)
      (h : List.Forall₂ (Copies s t) (s.list id).toList elements.toList) :
      Copies s t (.list id) (.list copy)
  | dict {id copy : Nat} {table : Table Key Value} (hcopy : t.dicts[copy]? = some table)
      (hkeys : (s.dict id).keys = table.keys)
      (h : List.Forall₂ (Copies s t) (s.dict id).values table.values) :
      Copies s t (.dict id) (.dict copy)

theorem Element.part {s : Store} {c : Container} {v : Value} (h : s.Element c.value v) :
    s.Part c.value v := by
  cases c with
  | list id => exact h
  | dict id =>
    obtain ⟨e, he, rfl⟩ := List.mem_map.mp h
    exact List.mem_flatMap.mpr ⟨e, he, by simp⟩

theorem Grounded.of_decreasing {s : Store} {v : Value} (rank : Value → Nat)
    (h : ∀ v, ∀ w ∈ s.elements v, rank w < rank v) : s.Grounded v := by
  intro w _ hcycle
  have hless {u : Value} (hu : Relation.TransGen s.Element w u) : rank u < rank w := by
    induction hu with
    | single he => exact h w _ he
    | tail _ he ih => exact (h _ _ he).trans ih
  exact Nat.lt_irrefl _ (hless hcycle)

theorem Grounded.element {s : Store} {v w : Value} (hv : s.Grounded v) (hw : s.Element v w) :
    s.Grounded w := fun u hu => hv u (.head hw hu)

end Store

namespace HostValue

variable {s t : Store}

theorem key?_ofValueAt (s : Store) (depth : Nat) (k : Key) :
    (ofValueAt s depth k.toValue).key? = Key.ofValue? k.toValue := by
  cases k <;> cases depth <;> rfl

theorem Stands.eq_toValue {depth : Nat} {k : Key} {w : Value}
    (h : Stands t (ofValueAt s depth k.toValue) w) : w = k.toValue := by
  cases k <;> cases depth <;> cases h <;> rfl

/-- What comes from the language is fit for it. -/
theorem fit_ofValueAt (s : Store) (depth : Nat) (v : Value) : (ofValueAt s depth v).Fit := by
  induction depth generalizing v with
  | zero => cases v <;> exact fit_of_parts_eq_nil rfl nofun
  | succ depth ih =>
    cases v with
    | list id =>
      refine fit_sequence_iff.mpr fun h hh => ?_
      obtain ⟨v, -, rfl⟩ := List.mem_map.mp hh
      exact ih v
    | dict id =>
      refine fit_mapping_iff.mpr fun e he => ?_
      obtain ⟨⟨k, v⟩, -, rfl⟩ := List.mem_map.mp he
      refine ⟨ih _, ?_, ih _⟩
      rw [key?_ofValueAt]
      cases k <;> exact ⟨_, rfl⟩
    | _ => exact fit_of_parts_eq_nil rfl nofun

theorem forall₂_of_standsAll {f : Value → HostValue} {R : Value → Value → Prop} {vs ws : List Value}
    (h : StandsAll t (vs.map f) ws) (hf : ∀ v ∈ vs, ∀ w, Stands t (f v) w → R v w) :
    List.Forall₂ R vs ws := by
  induction vs generalizing ws with
  | nil => cases h; exact .nil
  | cons v vs ih =>
    cases h with
    | cons hv hvs =>
      rw [List.forall_mem_cons] at hf
      exact .cons (hf.1 _ hv) (ih hvs hf.2)

theorem forall₂_of_standsEntries {depth : Nat} {R : Value → Value → Prop} {es : List (Key × Value)}
    {pairs : List (Key × Value)}
    (h : StandsEntries t
      (es.map fun (k, v) => (ofValueAt s depth k.toValue, ofValueAt s depth v)) pairs)
    (hkeys : ∀ k ∈ es.map (·.1), Key.ofValue? k.toValue = some k)
    (hf : ∀ v ∈ es.map (·.2), ∀ w, Stands t (ofValueAt s depth v) w → R v w) :
    es.map (·.1) = pairs.map (·.1) ∧ List.Forall₂ R (es.map (·.2)) (pairs.map (·.2)) := by
  induction es generalizing pairs with
  | nil => cases h; exact ⟨rfl, .nil⟩
  | cons e es ih =>
    cases h with
    | @cons _ _ index w key _ pairs hindex hkey hv hes =>
      rw [List.map_cons, List.forall_mem_cons] at hkeys hf
      obtain ⟨hkeys', hvalues⟩ := ih hes hkeys.2 hf.2
      have hsame : e.1 = key := by
        rw [hindex.eq_toValue, hkeys.1] at hkey
        exact Option.some_inj.mp hkey
      exact ⟨congrArg₂ List.cons hsame hkeys', .cons (hf.1 w hv) hvalues⟩

theorem copies_of_stands (hs : s.DictsProper) {depth : Nat} {above : List Container}
    {v w : Value} (hdepth : s.unseen above < depth) (hv : s.Grounded v)
    (habove : ∀ c ∈ above, Relation.TransGen s.Element c.value v)
    (h : Stands t (ofValueAt s depth v) w) : s.Copies t v w := by
  induction depth generalizing above v w with
  | zero => omega
  | succ depth ih =>
    -- a container is not inside itself, so that fewer are left for its elements
    have helements (c : Container) (hc : v = c.value) (e : Value) (he : s.Element v e) (w : Value)
        (hw : Stands t (ofValueAt s depth e) w) : s.Copies t e w := by
      subst hc
      have hnot : c ∉ above := fun hmem => hv _ .refl (habove c hmem)
      have hfewer := Store.unseen_cons_lt he.part.mem_allContainers hnot
      have hinside : ∀ c' ∈ c :: above, Relation.TransGen s.Element c'.value e :=
        List.forall_mem_cons.mpr ⟨.single he, fun c' hc' => (habove c' hc').tail he⟩
      exact ih (by omega) (hv.element he) hinside hw
    cases v with
    | list id =>
      cases h with
      | sequence hid hall =>
        exact .list hid (forall₂_of_standsAll hall (helements (.list id) rfl))
    | dict id =>
      cases h with
      | @mapping _ copy pairs hid hall =>
        obtain ⟨hkeys, hvalues⟩ :=
          forall₂_of_standsEntries hall (hs id).key_eq (helements (.dict id) rfl)
        have hnodup : (pairs.map (·.1)).Nodup := hkeys ▸ (hs id).nodup
        rw [Table.ofList_of_nodup hnodup] at hid
        exact .dict hid hkeys hvalues
    | _ => cases h; exact .plain (by rintro ⟨⟩ <;> nofun)

/-- A value without cycles comes back from the host as a copy of itself, in a store where all else is as
it was. The keys of dicts are proper in every session (`Session.Reachable.dictsProper`) and at every
point of a run (`Deed.run_dictsProper`). What the host makes becomes the value that it stands for, with
dicts in which keys keep their first place and their last value, or, if something in it can't be a key,
a fault. -/
theorem there_and_back {s : Store} {v : Value} (hs : s.DictsProper) (hv : s.Grounded v) :
    (∀ s', ∃ w t, (ofValue s v).toValue s' = .ok w t ∧ s'.Grows t ∧ s.Copies t v w) ∧
      (∀ (h : HostValue) s', h.Fit → ∃ w t, h.toValue s' = .ok w t ∧ s'.Grows t ∧ Stands t h w) ∧
      (∀ (h : HostValue) s', ¬h.Fit →
        ∃ name t, h.toValue s' = .error (.fault (.unhashable name)) t ∧ s'.Grows t) ∧
      (∀ t h w, Stands t h w → h.key? = Key.ofValue? w) ∧
      ∀ pairs : List (Key × Value), (Table.ofList pairs).keys = (pairs.map (·.1)).eraseDups ∧
        ∀ k, (Table.ofList pairs).get? k = pairs.reverse.lookup k := by
  refine ⟨fun s' => ?_, fun _ s' => toValue_of_fit s', fun _ s' => toValue_of_not_fit s',
    fun _ _ _ hw => hw.key?, fun pairs => ⟨Table.keys_ofList pairs, Table.get?_ofList pairs⟩⟩
  obtain ⟨w, t, hvalue, hgrows, hw⟩ := toValue_of_fit s' (fit_ofValueAt s (s.containers + 1) v)
  have hdepth : s.unseen [] < s.containers + 1 := Nat.lt_succ_of_le s.unseen_nil_le
  exact ⟨w, t, hvalue, hgrows, copies_of_stands hs hdepth hv (List.forall_mem_nil _) hw⟩

/-- A list with another one in it twice, which holds a dict and a function. -/
theorem there_and_back_shared :
    let s : Store := { Store.empty with
      lists := #[#[.dict 0, .function 3], #[.list 0, .list 0, .null]]
      dicts := #[Table.ofList [(.float .zero, .float Binary64.zero.neg), (.float .nan, .opaqueRef 0)]] }
    s.DictsProper ∧ s.Grounded (.list 1) ∧
      ∃ w t, (ofValue s (.list 1)).toValue s = .ok w t ∧ s.Grows t ∧ s.Copies t (.list 1) w := by
  intro s
  have hs (id : Nat) : (s.dict id).Proper := by
    cases id with
    | zero => exact ⟨by decide +kernel, by decide +kernel⟩
    | succ id => exact ⟨List.nodup_nil, List.forall_mem_nil _⟩
  let rank : Value → Nat
    | .dict 0 => 1
    | .list 0 => 2
    | .list 1 => 3
    | _ => 0
  have hv : s.Grounded (.list 1) := by
    refine .of_decreasing rank fun v => ?_
    cases v with
    | list id =>
      match id with
      | 0 | 1 => decide +kernel
      | _ + 2 => exact List.forall_mem_nil _
    | dict id =>
      match id with
      | 0 => decide +kernel
      | _ + 1 => exact List.forall_mem_nil _
    | _ => exact List.forall_mem_nil _
  exact ⟨hs, hv, (there_and_back hs hv).1 s⟩

end HostValue
end Rill
