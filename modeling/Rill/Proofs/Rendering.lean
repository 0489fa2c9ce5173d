import Mathlib.Data.Finset.Card
import Rill.Eval.Evaluator
import Rill.Proofs.Rendering.Figures

/-! Rendering ends, and marks exactly what is inside itself. -/
namespace Rill

/-- What it is for a computation to give a result. -/
structure Outcomes (m : Type → Type) [Monad m] where
  Gives {α : Type} : m α → α → Prop
  pure {α : Type} (a : α) : Gives (Pure.pure a) a
  bind {α β : Type} {x : m α} {a : α} {f : α → m β} {b : β} :
    Gives x a → Gives (f a) b → Gives (x >>= f) b

namespace Outcomes

/-- Results without a state. -/
def ofId : Outcomes Id where
  Gives x a := x.run = a
  pure _ := rfl
  bind := by
    rintro _ _ _ _ _ _ rfl hb
    exact hb

/-- Results that leave the machine as it is. -/
def still (n : Machine) : Outcomes Eval where
  Gives x a := x n = .ok a n
  pure _ := rfl
  bind := by
    intro _ _ x a f b hx hf
    show EStateM.bind x f n = .ok b n
    simp only [EStateM.bind, hx, hf]

end Outcomes

namespace Store

variable {s : Store}

/-- How many containers of the store are not among the given ones. -/
def unseen (s : Store) (above : List Container) : Nat :=
  (s.allContainers.toFinset \ above.toFinset).card

theorem unseen_nil_le (s : Store) : s.unseen [] ≤ s.containers := by
  rw [unseen, List.toFinset_nil, Finset.sdiff_empty, ← length_allContainers]
  exact List.toFinset_card_le _

theorem unseen_cons_lt {above : List Container} {c : Container} (hc : c ∈ s.allContainers)
    (hnot : c ∉ above) : s.unseen (c :: above) < s.unseen above := by
  have hmem : c ∈ s.allContainers.toFinset \ above.toFinset :=
    Finset.mem_sdiff.mpr ⟨List.mem_toFinset.mpr hc, by simpa using hnot⟩
  rw [unseen, unseen, List.toFinset_cons, Finset.sdiff_insert]
  exact Finset.card_erase_lt_of_mem hmem

/-- A container that is not in the store is empty. -/
theorem Part.mem_allContainers {c : Container} {v : Value} (h : s.Part c.value v) :
    c ∈ s.allContainers := by
  cases c with
  | list id =>
    have hlt : id < s.lists.size := by
      by_contra hge
      simp [Part, parts, Container.value, list, Array.getElem?_eq_none (Nat.not_lt.mp hge)] at h
    exact List.mem_append_left _ (List.mem_map_of_mem (List.mem_range.mpr hlt))
  | dict id =>
    have hlt : id < s.dicts.size := by
      by_contra hge
      simp [Part, parts, Container.value, dict, Array.getElem?_eq_none (Nat.not_lt.mp hge),
        Table.toList, Table.empty] at h
    exact List.mem_append_right _ (List.mem_map_of_mem (List.mem_range.mpr hlt))

end Store

namespace Renderer

variable {m : Type → Type} [Monad m] {O : Outcomes m} {r : Renderer m} {s : Store}

/-- The renderer finds what is in the store. -/
structure Reads (O : Outcomes m) (r : Renderer m) (s : Store) : Prop where
  list (id : Nat) : O.Gives (r.list id) (s.list id)
  dict (id : Nat) : O.Gives (r.dict id) (s.dict id)
  named (v : Value) : O.Gives (r.named v) (s.named v)

/-- The instances in a value have the texts that they have without a rendering of their own. -/
def Unhooked (O : Outcomes m) (r : Renderer m) (s : Store) (v : Value) : Prop :=
  ∀ id, s.Contains v (.object id) → ∀ quoted, O.Gives (r.object id quoted) (s.instanceText id)

theorem Unhooked.contains {v w : Value} (h : r.Unhooked O s v) (hw : s.Contains v w) :
    r.Unhooked O s w :=
  fun id hid => h id (hw.trans hid)

/-- In the containers `above`, the value has a figure, and the computation gives its text. -/
def Shows (O : Outcomes m) (s : Store) (above : List Container) (quoted : Bool) (v : Value)
    (x : m String) : Prop :=
  ∃ f, s.Depicts Store.inItself above quoted v f ∧ O.Gives x f.text

/-- A value is shown if the containers in it are. -/
theorem value_shows (hr : r.Reads O s) {container : Container → m String} {above : List Container}
    {v : Value} (hobject : r.Unhooked O s v)
    (hcontainer : ∀ c quoted, s.Contains v c.value → Shows O s above quoted c.value (container c))
    (quoted : Bool) : Shows O s above quoted v (r.value container quoted v) := by
  induction v generalizing quoted with
  | list id => exact hcontainer (.list id) quoted .refl
  | dict id => exact hcontainer (.dict id) quoted .refl
  | item id inner ih =>
    have hinner : s.Contains (.item id inner) inner := .single (List.mem_singleton.mpr rfl)
    obtain ⟨f, hf, htext⟩ := ih (hobject.contains hinner)
      (fun c quoted hc => hcontainer c quoted (hinner.trans hc)) true
    exact ⟨.item f, .item hf, O.bind htext (O.pure _)⟩
  | object id => exact ⟨_, .leaf trivial, hobject id .refl quoted⟩
  | function | type | module => exact ⟨_, .leaf trivial, hr.named _⟩
  | null | bool | int | float | str | native | bound | opaqueRef =>
    exact ⟨_, .leaf trivial, O.pure _⟩

variable [LawfulMonad m]

theorem mapM_shows {above : List Container} {x : Value → m String} {vs : List Value}
    (h : ∀ v ∈ vs, Shows O s above true v (x v)) :
    ∃ fs, s.DepictsAll Store.inItself above vs fs ∧ O.Gives (vs.mapM x) (Figure.texts fs) := by
  induction vs with
  | nil => exact ⟨[], .nil, by rw [List.mapM_nil]; exact O.pure _⟩
  | cons v vs ih =>
    obtain ⟨hv, hvs⟩ := List.forall_mem_cons.mp h
    obtain ⟨f, hf, htext⟩ := hv
    obtain ⟨fs, hfs, htexts⟩ := ih hvs
    refine ⟨f :: fs, .cons hf hfs, ?_⟩
    rw [List.mapM_cons]
    exact O.bind htext (O.bind htexts (O.pure _))

theorem mapM_shows_entries {above : List Container} {x : Value → m String}
    {es : List (Key × Value)}
    (h : ∀ v ∈ es.flatMap fun (key, v) => [key.toValue, v], Shows O s above true v (x v)) :
    ∃ fs, s.DepictsEntries Store.inItself above es fs ∧
      O.Gives (es.mapM fun (key, v) => do
        let k ← x key.toValue
        return k ++ ": " ++ (← x v)) (Figure.entryTexts fs) := by
  induction es with
  | nil => exact ⟨[], .nil, by rw [List.mapM_nil]; exact O.pure _⟩
  | cons e es ih =>
    rw [List.flatMap_cons] at h
    simp only [List.cons_append, List.nil_append, List.forall_mem_cons] at h
    obtain ⟨⟨k, hk, hkey⟩, ⟨f, hf, htext⟩, hes⟩ := h
    obtain ⟨fs, hfs, htexts⟩ := ih hes
    refine ⟨(k, f) :: fs, .cons hk hf hfs, ?_⟩
    rw [List.mapM_cons]
    exact O.bind (O.bind hkey (O.bind htext (O.pure _))) (O.bind htexts (O.pure _))

/-- A container is shown if as many levels are foreseen as there are containers not yet entered. -/
theorem container_shows (hr : r.Reads O s) {depth : Nat} {above : List Container} {c : Container}
    (hdepth : s.unseen above < depth) (hobject : r.Unhooked O s c.value) (quoted : Bool) :
    Shows O s above quoted c.value (r.container depth above c) := by
  induction depth generalizing above c quoted with
  | zero => omega
  | succ depth ih =>
    by_cases hc : c ∈ above
    · refine ⟨.mark c, .mark rfl hc, ?_⟩
      rw [container, if_pos (by simpa using hc), Figure.text_mark]
      exact O.pure _
    rw [container, if_neg (by simpa using hc)]
    have hparts (v : Value) (hv : s.Part c.value v) :
        Shows O s (c :: above) true v (r.value (r.container depth (c :: above)) true v) := by
      have hfewer := Store.unseen_cons_lt hv.mem_allContainers hc
      have hpart := hobject.contains (.single hv)
      exact value_shows hr hpart
        (fun c' quoted hc' => ih (by omega) (hpart.contains hc') quoted) true
    cases c with
    | list id =>
      obtain ⟨fs, hfs, htexts⟩ := mapM_shows hparts
      exact ⟨.list fs, .list hc hfs, O.bind (hr.list id) (O.bind htexts (O.pure _))⟩
    | dict id =>
      obtain ⟨fs, hfs, htexts⟩ := mapM_shows_entries hparts
      exact ⟨.dict fs, .dict hc hfs, O.bind (hr.dict id) (O.bind htexts (O.pure _))⟩

/-- A value is shown, inside nothing, if more levels are foreseen than there are containers. -/
theorem shows_of_containers_lt (hr : r.Reads O s) {v : Value} (hobject : r.Unhooked O s v)
    {depth : Nat} (hdepth : s.containers < depth) (quoted : Bool) :
    Shows O s [] quoted v (r.value (r.container depth []) quoted v) := by
  have hunseen : s.unseen [] < depth := s.unseen_nil_le.trans_lt hdepth
  apply value_shows hr hobject
  intro c quoted hc
  exact container_shows hr hunseen (hobject.contains hc) quoted

end Renderer

namespace Store

theorem renderer_reads (s : Store) : s.renderer.Reads .ofId s :=
  ⟨fun _ => rfl, fun _ => rfl, fun _ => rfl⟩

end Store

namespace Evaluator

theorem renderer_reads (ev : Evaluator) (span : Text.Span) (n : Machine) :
    (ev.renderer span).Reads (.still n) n.store :=
  ⟨fun _ => rfl, fun _ => rfl, fun _ => rfl⟩

/-- Where there are no instances, the program's own renderings make no difference, and rendering changes
nothing. -/
theorem text_shows (ev : Evaluator) {n : Machine} {v : Value}
    (hv : ∀ id, ¬n.store.Contains v (.object id)) (hfuel : n.store.containers < ev.fuel)
    (quoted : Bool) (span : Text.Span) :
    Renderer.Shows (.still n) n.store [] quoted v (ev.text quoted v span) := by
  have hobject : (ev.renderer span).Unhooked (.still n) n.store v := fun id hid => (hv id hid).elim
  exact Renderer.shows_of_containers_lt (ev.renderer_reads span n) hobject hfuel quoted

end Evaluator

namespace Store

theorem render_shows (s : Store) (quoted : Bool) (v : Value) :
    Renderer.Shows .ofId s [] quoted v
      (s.renderer.value (s.renderer.container (s.containers + 1) []) quoted v) := by
  have hobject : s.renderer.Unhooked .ofId s v := fun _ _ _ => rfl
  exact Renderer.shows_of_containers_lt s.renderer_reads hobject (Nat.lt_succ_self _) quoted

/-- Every value is rendered as the one figure in which a container is a mark just where the path to it
comes back to it. Without cycles that is the plain structure, and without instances the evaluator
gives the same text and changes nothing. -/
theorem rendering_marks_cycles (s : Store) (quoted : Bool) (v : Value) :
    ∃ fig : Figure, (∀ fig', s.Depicts inItself [] quoted v fig' ↔ fig' = fig) ∧
      s.render quoted v = fig.text ∧
      (∀ path f, follow Figure.parts fig path = some f →
        ∃ w, follow s.parts v path = some w ∧ (∀ c, f = .mark c ↔ s.Returns v path c) ∧
          ((∀ c, f ≠ .mark c) → f.parts.length = (s.parts w).length)) ∧
      (s.Acyclic v → ∀ fig', s.Depicts nowhere [] quoted v fig' ↔ fig' = fig) ∧
      ((∀ id, ¬s.Contains v (.object id)) →
        ∀ (ev : Evaluator) (span : Text.Span) (n : Machine), n.store = s → s.containers < ev.fuel →
          ev.text quoted v span n = .ok (s.render quoted v) n) := by
  obtain ⟨fig, hfig, htext⟩ := s.render_shows quoted v
  have hrender : s.render quoted v = fig.text := htext
  refine ⟨fig, fun _ => hfig.iff_eq, hrender, fun _ _ hf => hfig.positions hf, ?_, ?_⟩
  · intro hacyclic fig'
    have hclear : s.Clear [] v := ⟨hacyclic, by simp⟩
    exact (hfig.plain hclear).iff_eq
  · rintro hv ev span n rfl hfuel
    obtain ⟨fig', hfig', hgives⟩ := ev.text_shows hv hfuel quoted span
    rw [hrender, ← hfig'.unique hfig]
    exact hgives

/-- A list that is inside itself by way of an item and a dict, and a shared list beside it. -/
example :
    let s := { empty with
      lists := #[#[.item 0 (.dict 0), .list 1, .list 1], #[.null]]
      dicts := #[Table.ofList [(.str "up", .list 0), (.str "in", .dict 0)]] }
    s.repr (.list 0) = "[Item(\x7b'up': [...], 'in': \x7b...\x7d\x7d), [null], [null]]" := by
  decide +kernel

end Store
end Rill
