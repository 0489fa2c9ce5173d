import Mathlib.Logic.Relation
import Rill.Proofs.Datum

/-! What is shown of a value, as a tree: where it shows a value in full and where a mark. -/
namespace Rill

/-- What is shown of a value: a text if it has no parts, a mark in place of a container, or the figures
of its parts. -/
inductive Figure where
  | leaf (text : String)
  | mark (c : Container)
  | item (inner : Figure)
  | list (elements : List Figure)
  | dict (entries : List (Figure × Figure))

namespace Figure

mutual

def text : Figure → String
  | .leaf t => t
  | .mark (.list _) => "[...]"
  | .mark (.dict _) => "\x7b...\x7d"
  | .item inner => "Item(" ++ inner.text ++ ")"
  | .list elements => "[" ++ ", ".intercalate (texts elements) ++ "]"
  | .dict entries => "\x7b" ++ ", ".intercalate (entryTexts entries) ++ "\x7d"

def texts : List Figure → List String
  | [] => []
  | f :: fs => f.text :: texts fs

def entryTexts : List (Figure × Figure) → List String
  | [] => []
  | (k, f) :: fs => (k.text ++ ": " ++ f.text) :: entryTexts fs

end

/-- A mark shows which kind of container it stands for. -/
theorem text_mark (c : Container) : (mark c).text = c.mark := by
  cases c <;> rfl

/-- The figures that a figure is made of, in order. -/
def parts : Figure → List Figure
  | .leaf _ | .mark _ => []
  | .item inner => [inner]
  | .list elements => elements
  | .dict entries => entries.flatMap fun (k, f) => [k, f]

end Figure

/-- What a path of positions leads to, where `parts` are the parts of each thing. -/
def follow {α : Type} (parts : α → List α) : α → List Nat → Option α
  | a, [] => some a
  | a, i :: path => do follow parts (← (parts a)[i]?) path

/-- Whether a path leads through something before its end. -/
def Passes {α : Type} (parts : α → List α) (a : α) (path : List Nat) (b : α) : Prop :=
  ∃ front, front <+: path ∧ front ≠ path ∧ follow parts a front = some b

section Follow

variable {α : Type} {parts : α → List α} {a b c : α} {i : Nat} {path : List Nat}

theorem follow_cons_eq_some :
    follow parts a (i :: path) = some b ↔ ∃ c, (parts a)[i]? = some c ∧ follow parts c path = some b :=
  Option.bind_eq_some_iff

theorem not_passes_nil : ¬Passes parts a [] b := by
  rintro ⟨front, hfront, hne, -⟩
  exact hne (List.prefix_nil.mp hfront)

theorem passes_cons (hc : (parts a)[i]? = some c) :
    Passes parts a (i :: path) b ↔ a = b ∨ Passes parts c path b := by
  constructor
  · rintro ⟨front, hfront, hne, hb⟩
    rcases List.prefix_cons_iff.mp hfront with rfl | ⟨rest, rfl, hrest⟩
    · exact .inl (Option.some.inj hb)
    · obtain ⟨c', hc', hb⟩ := follow_cons_eq_some.mp hb
      cases hc.symm.trans hc'
      exact .inr ⟨rest, hrest, fun h => hne (by rw [h]), hb⟩
  · rintro (rfl | ⟨rest, hrest, hne, hb⟩)
    · exact ⟨[], List.nil_prefix, by simp, rfl⟩
    · exact ⟨i :: rest, List.cons_prefix_cons.mpr ⟨rfl, hrest⟩, by simpa using hne,
        follow_cons_eq_some.mpr ⟨c, hc, hb⟩⟩

end Follow

theorem Container.value_injective {c d : Container} (h : c.value = d.value) : c = d := by
  cases c <;> cases d <;> simp_all [Container.value]

namespace Value

/-- Whether a value is shown by a text of its own. -/
def IsLeaf : Value → Prop
  | .list _ | .dict _ | .item _ _ => False
  | _ => True

theorem IsLeaf.ne_value {v : Value} (h : v.IsLeaf) (c : Container) : v ≠ c.value := by
  rintro rfl
  cases c <;> exact h

/-- The containers around the parts of a value that is itself inside the containers `above`. -/
def within (above : List Container) : Value → List Container
  | .list id => .list id :: above
  | .dict id => .dict id :: above
  | _ => above

theorem mem_within {above : List Container} {v : Value} {c : Container} :
    c ∈ v.within above ↔ v = c.value ∨ c ∈ above := by
  cases v <;> cases c <;> simp [within, Container.value, eq_comm]

end Value

namespace Store

/-- The values that a value consists of as it is shown, in order. -/
def parts (s : Store) : Value → List Value
  | .list id => (s.list id).toList
  | .dict id => (s.dict id).toList.flatMap fun (key, v) => [key.toValue, v]
  | .item _ inner => [inner]
  | _ => []

/-- Whether a value is a part of a value. -/
def Part (s : Store) (whole part : Value) : Prop := part ∈ s.parts whole

/-- Whether a value is somewhere in a value, or is that value itself. -/
abbrev Contains (s : Store) : Value → Value → Prop := Relation.ReflTransGen s.Part

/-- Whether nothing in the value is inside itself. -/
def Acyclic (s : Store) (v : Value) : Prop := ∀ w, s.Contains v w → ¬Relation.TransGen s.Part w w

/-- Whether the path from a value leads to a container, and to it before. -/
def Returns (s : Store) (v : Value) (path : List Nat) (c : Container) : Prop :=
  follow s.parts v path = some c.value ∧ Passes s.parts v path c.value

theorem parts_of_isLeaf {s : Store} {v : Value} (h : v.IsLeaf) : s.parts v = [] := by
  cases v <;> first | rfl | exact h.elim

/-- The text of a value that consists of no others. -/
def leafText (s : Store) (quoted : Bool) : Value → String
  | .null => "null"
  | .bool b => toString b
  | .int i => toString i.toInt
  | .float x => Decimal.write .shown x
  | .str t => if quoted then Text.quote t else t
  | .function id => "<function " ++ s.functionName id ++ ">"
  | .native f | .bound f _ => "<native function " ++ f.name ++ ">"
  | .type id => "<class " ++ s.className id ++ ">"
  | .object id => "<" ++ s.instanceClassName id ++ " instance>"
  | .module id => "<module " ++ s.moduleName id ++ ">"
  | .opaqueRef _ => "<opaque>"
  | .list _ | .dict _ | .item _ _ => ""

mutual

/-- The figure shows the value inside the containers `above`, with marks in place of those containers
that are `marked` there. -/
inductive Depicts (s : Store) (marked : List Container → Container → Prop) :
    List Container → Bool → Value → Figure → Prop
  | leaf {above quoted v} : v.IsLeaf → Depicts s marked above quoted v (.leaf (s.leafText quoted v))
  | mark {above quoted v c} : v = c.value → marked above c → Depicts s marked above quoted v (.mark c)
  | item {above quoted id inner f} : Depicts s marked above true inner f →
      Depicts s marked above quoted (.item id inner) (.item f)
  | list {above quoted id fs} : ¬marked above (.list id) →
      DepictsAll s marked (.list id :: above) (s.list id).toList fs →
      Depicts s marked above quoted (.list id) (.list fs)
  | dict {above quoted id fs} : ¬marked above (.dict id) →
      DepictsEntries s marked (.dict id :: above) (s.dict id).toList fs →
      Depicts s marked above quoted (.dict id) (.dict fs)

inductive DepictsAll (s : Store) (marked : List Container → Container → Prop) :
    List Container → List Value → List Figure → Prop
  | nil {above} : DepictsAll s marked above [] []
  | cons {above v f vs fs} : Depicts s marked above true v f → DepictsAll s marked above vs fs →
      DepictsAll s marked above (v :: vs) (f :: fs)

inductive DepictsEntries (s : Store) (marked : List Container → Container → Prop) :
    List Container → List (Key × Value) → List (Figure × Figure) → Prop
  | nil {above} : DepictsEntries s marked above [] []
  | cons {above key k v f es fs} : Depicts s marked above true key.toValue k →
      Depicts s marked above true v f → DepictsEntries s marked above es fs →
      DepictsEntries s marked above ((key, v) :: es) ((k, f) :: fs)

end

/-- Marks in place of the containers that are inside themselves. -/
def inItself (above : List Container) (c : Container) : Prop := c ∈ above

/-- No marks: the plain structure. -/
def nowhere (_above : List Container) (_c : Container) : Prop := False

variable {s : Store} {marked : List Container → Container → Prop}

namespace Depicts

variable {above : List Container} {quoted : Bool} {v : Value} {f : Figure}

/-- A value is a mark where it is a container that is marked there. -/
theorem eq_mark_iff (h : s.Depicts marked above quoted v f) {c : Container} :
    f = .mark c ↔ v = c.value ∧ marked above c := by
  cases h with
  | leaf hleaf =>
    have hne := hleaf.ne_value c
    simp [hne]
  | mark hv hmarked =>
    constructor
    · intro hc
      cases hc
      exact ⟨hv, hmarked⟩
    · rintro ⟨hc, -⟩
      rw [Container.value_injective (hv.symm.trans hc)]
  | item => cases c <;> simp [Container.value]
  | list hnot | dict hnot =>
    cases c <;> simp only [Container.value, reduceCtorEq, false_and, Value.list.injEq,
      Value.dict.injEq, false_iff, not_and]
    rintro rfl
    exact hnot

end Depicts

/-! ### At most one figure shows a value -/

mutual

theorem Depicts.unique {above : List Container} {quoted : Bool} {v : Value} {f g : Figure}
    (h : s.Depicts marked above quoted v f) (h' : s.Depicts marked above quoted v g) : f = g := by
  have hmark {c : Container} := h.eq_mark_iff (c := c)
  cases h with
  | leaf hleaf =>
    cases h' with
    | leaf => rfl
    | mark hv hmarked => exact hmark.mpr ⟨hv, hmarked⟩
    | item | list | dict => exact hleaf.elim
  | mark hv hmarked => exact (h'.eq_mark_iff.mpr ⟨hv, hmarked⟩).symm
  | item hinner =>
    cases h' with
    | leaf hleaf => exact hleaf.elim
    | mark hv hmarked => exact hmark.mpr ⟨hv, hmarked⟩
    | item hinner' => rw [hinner.unique hinner']
  | list _ hall =>
    cases h' with
    | leaf hleaf => exact hleaf.elim
    | mark hv hmarked => exact hmark.mpr ⟨hv, hmarked⟩
    | list _ hall' => rw [hall.unique hall']
  | dict _ hentries =>
    cases h' with
    | leaf hleaf => exact hleaf.elim
    | mark hv hmarked => exact hmark.mpr ⟨hv, hmarked⟩
    | dict _ hentries' => rw [hentries.unique hentries']

theorem DepictsAll.unique {above : List Container} {vs : List Value} {fs gs : List Figure}
    (h : s.DepictsAll marked above vs fs) (h' : s.DepictsAll marked above vs gs) : fs = gs := by
  cases h with
  | nil => cases h'; rfl
  | cons hv hvs =>
    cases h' with
    | cons hv' hvs' => rw [hv.unique hv', hvs.unique hvs']

theorem DepictsEntries.unique {above : List Container} {es : List (Key × Value)}
    {fs gs : List (Figure × Figure)} (h : s.DepictsEntries marked above es fs)
    (h' : s.DepictsEntries marked above es gs) : fs = gs := by
  cases h with
  | nil => cases h'; rfl
  | cons hk hv hes =>
    cases h' with
    | cons hk' hv' hes' => rw [hk.unique hk', hv.unique hv', hes.unique hes']

end

theorem Depicts.iff_eq {above : List Container} {quoted : Bool} {v : Value} {f g : Figure}
    (h : s.Depicts marked above quoted v f) : s.Depicts marked above quoted v g ↔ g = f := by
  constructor
  · intro h'
    exact h'.unique h
  · rintro rfl
    exact h

/-! ### Where the marks are -/

/-- The parts of a value and the figures that show them. -/
abbrev DepictsParts (s : Store) (marked : List Container → Container → Prop)
    (above : List Container) : List Value → List Figure → Prop :=
  List.Forall₂ (s.Depicts marked above true)

theorem DepictsAll.parts {above : List Container} {vs : List Value} {fs : List Figure}
    (h : s.DepictsAll marked above vs fs) : s.DepictsParts marked above vs fs := by
  induction vs generalizing fs with
  | nil => cases h; exact .nil
  | cons v vs ih =>
    cases h with
    | cons hv hvs => exact .cons hv (ih hvs)

theorem DepictsEntries.parts {above : List Container} {es : List (Key × Value)}
    {fs : List (Figure × Figure)} (h : s.DepictsEntries marked above es fs) :
    s.DepictsParts marked above (es.flatMap fun (key, v) => [key.toValue, v])
      (fs.flatMap fun (k, f) => [k, f]) := by
  induction es generalizing fs with
  | nil => cases h; exact .nil
  | cons e es ih =>
    cases h with
    | cons hk hv hes => exact .cons hk (.cons hv (ih hes))

namespace Depicts

variable {above : List Container} {quoted : Bool} {v : Value} {f : Figure}

/-- What is not a mark shows all parts of its value, each inside what that value is inside, and inside
the value too if it is a container. -/
theorem parts (h : s.Depicts marked above quoted v f) (hf : ∀ c, f ≠ .mark c) :
    s.DepictsParts marked (v.within above) (s.parts v) f.parts := by
  cases h with
  | leaf hleaf =>
    rw [parts_of_isLeaf hleaf]
    exact .nil
  | @mark _ _ _ c => exact (hf c rfl).elim
  | item hinner => exact .cons hinner .nil
  | list _ hall => exact hall.parts
  | dict _ hentries => exact hentries.parts

/-- Every position in a figure is one in the value. What is there is shown inside the containers on the
path to it. -/
theorem follow (h : s.Depicts marked above quoted v f) {path : List Nat} {g : Figure}
    (hg : Rill.follow Figure.parts f path = some g) :
    ∃ w around quoted', Rill.follow s.parts v path = some w ∧ s.Depicts marked around quoted' w g ∧
      ∀ c, c ∈ around ↔ c ∈ above ∨ Passes s.parts v path c.value := by
  induction path generalizing above quoted v f with
  | nil =>
    cases hg
    exact ⟨v, above, quoted, rfl, h, fun c => by simp [not_passes_nil]⟩
  | cons i path ih =>
    obtain ⟨f', hf', hg⟩ := follow_cons_eq_some.mp hg
    have hparts := h.parts (by rintro c rfl; simp [Figure.parts] at hf')
    obtain ⟨hi, rfl⟩ := List.getElem?_eq_some_iff.mp hf'
    have hi' : i < (s.parts v).length := hparts.length_eq ▸ hi
    have hv' : (s.parts v)[i]? = some (s.parts v)[i] := List.getElem?_eq_getElem hi'
    obtain ⟨w, around, quoted', hw, hwg, haround⟩ := ih (hparts.get hi' hi) hg
    refine ⟨w, around, quoted', follow_cons_eq_some.mpr ⟨_, hv', hw⟩, hwg, fun c => ?_⟩
    rw [haround c, Value.mem_within, passes_cons hv']
    tauto

/-- Where containers that are inside themselves are marked, a position is a mark just if the path to it
comes back to a container; everything else has all its parts. -/
theorem positions (h : s.Depicts inItself [] quoted v f) {path : List Nat} {g : Figure}
    (hg : Rill.follow Figure.parts f path = some g) :
    ∃ w, Rill.follow s.parts v path = some w ∧ (∀ c, g = .mark c ↔ s.Returns v path c) ∧
      ((∀ c, g ≠ .mark c) → g.parts.length = (s.parts w).length) := by
  obtain ⟨w, around, quoted', hw, hwg, haround⟩ := h.follow hg
  refine ⟨w, hw, fun c => ?_, fun hunmarked => (hwg.parts hunmarked).length_eq.symm⟩
  rw [hwg.eq_mark_iff, Returns, hw, Option.some_inj, inItself, haround]
  simp

end Depicts

/-! ### What has no cycles is shown as it is -/

/-- Whether a value without cycles is inside each of these containers. -/
structure Clear (s : Store) (above : List Container) (v : Value) : Prop where
  acyclic : s.Acyclic v
  inside : ∀ c ∈ above, Relation.TransGen s.Part c.value v

namespace Clear

variable {above : List Container} {v w : Value}

theorem part (h : s.Clear above v) (hw : s.Part v w) : s.Clear (v.within above) w := by
  refine ⟨fun u hu => h.acyclic u (.head hw hu), fun c hc => ?_⟩
  rcases Value.mem_within.mp hc with rfl | hc
  · exact .single hw
  · exact (h.inside c hc).tail hw

theorem not_inItself (h : s.Clear above v) {c : Container} (hv : v = c.value) : ¬inItself above c := by
  intro hc
  have hcycle := h.inside c hc
  rw [← hv] at hcycle
  exact h.acyclic v .refl hcycle

end Clear

mutual

theorem Depicts.plain {above : List Container} {quoted : Bool} {v : Value} {f : Figure}
    (h : s.Depicts inItself above quoted v f) (hclear : s.Clear above v) :
    s.Depicts nowhere above quoted v f := by
  cases h with
  | leaf hleaf => exact .leaf hleaf
  | mark hv hmarked => exact (hclear.not_inItself hv hmarked).elim
  | item hinner => exact .item (hinner.plain (hclear.part (List.mem_singleton.mpr rfl)))
  | list _ hall => exact .list id (hall.plain fun w hw => hclear.part hw)
  | dict _ hentries => exact .dict id (hentries.plain fun w hw => hclear.part hw)

theorem DepictsAll.plain {above : List Container} {vs : List Value} {fs : List Figure}
    (h : s.DepictsAll inItself above vs fs) (hclear : ∀ v ∈ vs, s.Clear above v) :
    s.DepictsAll nowhere above vs fs := by
  cases h with
  | nil => exact .nil
  | cons hv hvs =>
    exact .cons (hv.plain (hclear _ List.mem_cons_self))
      (hvs.plain fun w hw => hclear w (List.mem_cons_of_mem _ hw))

theorem DepictsEntries.plain {above : List Container} {es : List (Key × Value)}
    {fs : List (Figure × Figure)} (h : s.DepictsEntries inItself above es fs)
    (hclear : ∀ v ∈ es.flatMap fun (key, v) => [key.toValue, v], s.Clear above v) :
    s.DepictsEntries nowhere above es fs := by
  cases h with
  | nil => exact .nil
  | cons hk hv hes =>
    rw [List.flatMap_cons] at hclear
    simp only [List.cons_append, List.nil_append, List.forall_mem_cons] at hclear
    obtain ⟨hkey, hvalue, hrest⟩ := hclear
    exact .cons (hk.plain hkey) (hv.plain hvalue) (hes.plain hrest)

end

end Store
end Rill
