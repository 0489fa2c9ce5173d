import Rill.Proofs.Iteration.Iterators

/-! A loop over a value handles the elements that the value has when the loop begins.

The iterator of a loop and the list of its elements are kept from the program, so that the loop does
what it would do if all elements were known beforehand. -/
namespace Rill

open Text (Span)
open Eval Veil

variable {V : Veil} {s t : Store} {it own position : Nat} {xs : Array Value}

/-- An iterator and the list of its elements are kept from the program. -/
def Veil.hiding (own it : Nat) : Veil := ⟨{own}, {it}, ∅, ∅, True⟩

namespace Store

/-- An iterator that is kept from the program stands where it stood. -/
theorem StandsAt.hidden (h : s.StandsAt it own xs position) (hs : s.Sound V) (hst : s.Moves V t)
    (hown : own ∈ V.lists) (hit : it ∈ V.objects) : t.StandsAt it own xs position := by
  have hobject : t.instances[it]? = s.instances[it]? := hst.hiddenObject hs hit
  have hfield (name : String) : t.field? it name = s.field? it name := by
    rw [field?, hobject]
    rfl
  constructor
  · exact h.lt.trans_le hst.persists.instances_size
  · rw [typeOf, hobject]
    exact h.type
  · exact (hfield _).trans h.next
  · exact (hfield _).trans h.items
  · exact (hfield _).trans h.index
  · exact (hst.hiddenList hs hown).trans h.elements
  · exact h.le

/-- The elements over which a value iterates are known. -/
theorem Sound.elements? (hs : s.Sound V) {v : Value} (h : s.elements? v = some xs) :
    ∀ x ∈ xs, x.Known V s := by
  cases v with
  | list id =>
    cases h
    exact hs.list
  | dict id =>
    cases h
    intro x hx
    obtain ⟨e, -, rfl⟩ := Array.mem_map.mp hx
    exact Value.Known.ofKey s e.1
  | str text =>
    cases h
    intro x hx
    obtain ⟨c, -, rfl⟩ := List.mem_map.mp (List.mem_toArray.mp hx)
    trivial
  | _ => cases h

/-- A new iterator can be kept from the program together with the list of its elements, or else the
fields that refer to that. -/
theorem Sound.withIterator (hs : s.Sound .lifted) (hxs : ∀ x ∈ xs, x.Known .lifted s)
    (hlists : V.lists = {s.lists.size}) (hobjects : V.objects ⊆ {s.instances.size})
    (hsealed : V.sealed ⊆ {s.instances.size})
    (hshut : s.instances.size ∈ V.objects ∨ s.instances.size ∈ V.sealed) :
    (s.withIterator xs).Sound V := by
  have hknown {v : Value} (hv : v.Known .lifted s) : v.Known V (s.withIterator xs) := by
    have hold : v.Known V s := by
      refine hv.reveil (fun id hlt hid => ?_) fun id hlt hid => ?_
      · rw [hlists] at hid
        exact absurd hid (Nat.ne_of_lt hlt)
      · exact absurd (hobjects hid) (Nat.ne_of_lt hlt)
    exact hold.of_le (by simp [Store.withIterator]) le_rfl (by simp [Store.withIterator])
  have hcontents := hs.contents.mono fun _ => hknown
  have hstands := withIterator_standsAt s xs
  constructor
  · refine { hcontents with
      lists := Array.forall_mem_push.mpr ⟨fun x hx => hknown (hxs x hx), hcontents.lists⟩
      objects := fun id o ho hid => ?_ }
    change (s.instances.push _)[id]? = some o at ho
    rw [Array.getElem?_push] at ho
    split at ho
    · next heq =>
      cases ho
      subst heq
      have hshut : s.instances.size ∈ V.sealed := hshut.resolve_left hid
      apply Table.All.ofList
      simp only [List.forall_mem_cons, List.not_mem_nil, false_implies, implies_true, and_true]
      constructor
      · intro hshows
        exact absurd (by decide) (hshows _ hshut rfl)
      · exact fun _ => trivial
    · exact (hcontents.objects id o ho (fun h => h)).mono fun _ _ hv _ =>
        hv fun _ h => h.elim
  · exact hs.builtins
  · exact hs.superclasses
  · exact Array.forall_mem_push.mpr ⟨hs.builtin_lt .listIterator, hs.types⟩
  · intro id hid
    rw [hlists] at hid
    cases hid
    simp [Store.withIterator]
  · intro id hid
    cases hobjects hid
    exact hstands.lt
  · intro id hid
    cases hsealed hid
    exact ⟨hstands.lt, hstands.next⟩

/-- To advance an iterator leaves a sound store. -/
theorem Sound.advanced (hs : s.Sound V) (it position : Nat) : (s.advanced it position).Sound V := by
  have hmono {v : Value} (hv : v.Known V s) : v.Known V (s.advanced it position) :=
    hv.of_le le_rfl le_rfl (by simp [Store.advanced])
  have hcontents := hs.contents.mono fun _ => hmono
  have hput := hcontents.putField it "__index__" (.int (Int64.ofNat position + 1)) fun _ => trivial
  constructor
  · exact { hput with }
  · exact hs.builtins
  · exact hs.superclasses
  · have htypes (o : Instance) (ho : o.type < s.classes.size) :
        ({ o with fields := o.fields.put "__index__" (.int (Int64.ofNat position + 1)) }
          : Instance).type < s.classes.size := ho
    exact forall_mem_modify hs.types htypes it
  · exact hs.lists
  · intro id hid
    simpa [Store.advanced] using hs.objects id hid
  · intro id hid
    obtain ⟨hlt, hnext⟩ := hs.sealed id hid
    have hne : it = id → "__index__" ≠ "next" := fun _ => by decide
    constructor
    · simpa [Store.advanced] using hlt
    · exact (field?_put_of_ne hne (.int (Int64.ofNat position + 1))).trans hnext

/-- Hands out the element at a position from an iterator. -/
def advance (it position : Nat) : Action Unit := modify (·.advanced it position)

end Store

/-- Two continuations of a computation need only agree on what it can lead to. -/
theorem Veil.RunsAt.bind_congr {α β : Type} {Q : Store → α → Prop} {x : Eval α} {f g : α → Eval β}
    {m : Machine} (hx : V.RunsAt m Q x) (h : ∀ a n, m.Follows V n → f a n = g a n) :
    (x >>= f) m = (x >>= g) m := by
  cases hrun : x m with
  | ok a n =>
    rw [bind_of_ok hrun, bind_of_ok hrun]
    exact h a n (hx.of_ok hrun).1
  | error halt n => rw [bind_of_error hrun, bind_of_error hrun]

namespace Syntax

/-- Runs `body` for each of some elements that are known beforehand, stored by `bind`. Before each,
`note` is told its position. -/
def eachOf (note : Nat → Eval Unit) (bind : Value → Eval Unit) (body : Eval Signal) :
    (fuel position : Nat) → List Value → Eval Signal
  | 0, _, _ => outOfFuel
  | _ + 1, _, [] => return .normal
  | fuel + 1, position, x :: xs => do
    note position
    bind x
    match ← body with
    | .breakLoop => return .normal
    | .returned v => return .returned v
    | _ => eachOf note bind body fuel (position + 1) xs

/-- A loop whose iterator is kept from the program handles the elements after its position. -/
theorem forLoop_eq_eachOf (hown : own ∈ V.lists) (hit : it ∈ V.objects) {settings : Settings}
    {fuel : Nat} {bind : Value → Eval Unit} {body : Eval Signal}
    (hbind : ∀ v t, v.Known V t → V.Runs t Any (bind v)) (hbody : ∀ t, V.Runs t Any body)
    (hsize : xs.size < 2 ^ 63) (span : Span) (rounds : Nat) {m : Machine} (hm : m.store.Sound V)
    (h : m.store.StandsAt it own xs position) (hdepth : m.calls.size < settings.maxCallDepth) :
    forLoop ((Evaluator.ofFuel settings (fuel + 1)).advance (.object it) span) bind body rounds m =
      eachOf (fun k => Store.advance it k) bind body rounds position
        (xs.toList.drop position) m := by
  induction rounds generalizing m position with
  | zero => rfl
  | succ rounds ih =>
    unfold forLoop
    rcases Nat.lt_or_eq_of_le h.le with hlt | rfl
    · have hnext := Evaluator.advance_of_lt hm h hdepth hlt hsize span fuel
      have hnote : (Store.advance it position : Eval Unit) m =
        .ok () { m with store := m.store.advanced it position } := rfl
      have hdrop : xs.toList.drop position = xs[position] :: xs.toList.drop (position + 1) := by
        rw [List.drop_eq_getElem_cons (by simpa using hlt), Array.getElem_toList]
      rw [bind_of_ok hnext, hdrop, eachOf, bind_of_ok hnote]
      dsimp only
      have hm' : ({ m with store := m.store.advanced it position } : Machine).store.Sound V :=
        hm.advanced it position
      have hx : xs[position].Known V (m.store.advanced it position) := by
        have hmem : xs[position] ∈ (m.store.advanced it position).list own := by
          rw [(h.advanced hlt).list]
          exact Array.getElem_mem hlt
        exact hm'.list _ hmem
      refine ((hbind _ _ hx).now hm').bind_congr fun _ n hn => ?_
      refine ((hbody n.store).now (hn.sound hm')).bind_congr fun signal o ho => ?_
      have hno := hn.trans ho
      have hstands : o.store.StandsAt it own xs (position + 1) :=
        (h.advanced hlt).hidden hm' hno.store hown hit
      have hdepth' : o.calls.size < settings.maxCallDepth := by
        rw [hno.calls]
        exact hdepth
      cases signal with
      | breakLoop | returned => rfl
      | normal | continueLoop => exact ih (hno.sound hm') hstands hdepth'
    · have hnext := Evaluator.advance_of_eq hm h hdepth hsize span fuel
      rw [bind_of_ok hnext, List.drop_eq_nil_of_le (by simp)]
      rfl

variable {settings : Settings} {fuel env : Nat} {element : Ident} {iterable : Expr}
  {body : List Stmt} {span : Span} {m n : Machine} {v : Value}

/-- A `for`-loop runs its body for each of the elements that its value has when it begins. -/
theorem Stmt.exec_forEach (hhosts : ∀ f ∈ settings.hosts, f.Honest)
    (hiterable : iterable.eval (.ofFuel settings (fuel + 1)) env m = .ok v n)
    (hn : n.store.Sound .lifted) (hv : n.store.elements? v = some xs) (hsize : xs.size < 2 ^ 63)
    (hdepth : n.calls.size < settings.maxCallDepth) :
    (Stmt.forEach element iterable body span).exec (.ofFuel settings (fuel + 1)) env m =
      eachOf (fun position => Store.advance n.store.instances.size position)
        (fun x => Store.bind env element.name x) (execAll (.ofFuel settings (fuel + 1)) env body)
        fuel 0 xs.toList { n with store := n.store.withIterator xs } := by
  have hsound : (n.store.withIterator xs).Sound
      (.hiding n.store.lists.size n.store.instances.size) :=
    hn.withIterator (hn.elements? hv) rfl subset_rfl (Set.empty_subset _) (.inl rfl)
  have hev : (Veil.hiding n.store.lists.size n.store.instances.size).Governs
      (.ofFuel settings (fuel + 1)) :=
    Evaluator.ofFuel_keeps trivial rfl rfl hhosts (fuel + 1)
  have hiterate := Evaluator.iterate_eq hn hv hdepth iterable.span fuel
  unfold Stmt.exec
  rw [bind_of_ok hiterable, bind_of_ok hiterate]
  exact forLoop_eq_eachOf rfl rfl (fun x t hx => .action (acts_bind hx env element.name))
    (fun t => (execAll_runs hev env body).any) hsize iterable.span fuel hsound
    (Store.withIterator_standsAt n.store xs) hdepth

/-- It does not begin if no more calls can be made. -/
theorem Stmt.exec_forEach_overflow
    (hiterable : iterable.eval (.ofFuel settings (fuel + 1)) env m = .ok v n)
    (hn : n.store.Sound V) (hv : n.store.elements? v = some xs)
    (hdepth : settings.maxCallDepth ≤ n.calls.size) :
    Overflows settings.maxCallDepth
      ((Stmt.forEach element iterable body span).exec (.ofFuel settings (fuel + 1)) env m) := by
  obtain ⟨e, o, hiterate, hcause⟩ :=
    Evaluator.iterate_overflow hn hv hdepth iterable.span fuel
  refine ⟨e, o, ?_, hcause⟩
  unfold Stmt.exec
  rw [bind_of_ok hiterable, bind_of_error hiterate]

end Syntax
end Rill
