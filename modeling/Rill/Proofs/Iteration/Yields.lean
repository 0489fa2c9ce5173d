import Rill.Proofs.Iteration.Loops

/-! What an iterator hands out while a program uses it only through `next` and `iter`. -/
namespace Rill

open Text (Span)
open Eval Veil

variable {V : Veil} {s t u : Store} {it own position : Nat} {xs : Array Value} {rests : Set Nat}
  {out more : List Value}

/-- A program uses an iterator only through `next` and `iter`, and advances none that are to be
still. -/
def Veil.sealing (own it : Nat) (still : Set Nat) : Veil := ⟨{own}, ∅, {it}, still, True⟩

/-! ### Iterators that are still -/

/-- What is known does not depend on which iterators are still. -/
@[simp] theorem Value.known_still (v : Value) :
    v.Known { V with still := rests } s ↔ v.Known V s := by
  constructor
  · exact fun hv => hv.reveil (fun _ _ hid => hid) fun _ _ hid => hid
  · exact fun hv => hv.reveil (fun _ _ hid => hid) fun _ _ hid => hid

theorem Store.Sound.letRest (hs : s.Sound V) : s.Sound { V with still := rests } := by
  have hcontents : s.Contents V (Value.Known { V with still := rests } s) :=
    hs.contents.mono fun v => (Value.known_still v).mpr
  exact { hs with contents := { hcontents with } }

theorem Deed.Known.letRest {deed : Deed} (h : deed.Known V s) :
    deed.Known { V with still := rests } s := by
  cases deed with
  | call callee arguments span => simpa [Deed.Known] using h
  | _ => trivial

namespace Store

/-- A step leaves other iterators still, or advances one of them. -/
theorem Move.letRest (h : s.Move V t) (rests : Set Nat) :
    s.Move { V with still := rests } t ∨ ∃ id ∈ rests, id ∉ V.still ∧ ∃ items index,
      s.field? id "__items__" = some (.list items) ∧ s.field? id "__index__" = some (.int index) ∧
      index.toInt < (s.list items).size ∧
      t = { s with
        instances := s.instances.modify id fun o =>
          { o with fields := o.fields.put "__index__" (.int (index + 1)) }
        items := s.items + 1 } := by
  cases h with
  | list elements h => exact .inl (.list elements (by simpa using h))
  | dict entries h => exact .inl (.dict entries (by simpa using h))
  | item => exact .inl .item
  | function f h => exact .inl (.function f (by simpa using h))
  | type c parent h => exact .inl (.type c parent (by simpa using h) ‹_› ‹_›)
  | module k h => exact .inl (.module k (by simpa using h))
  | object o h htype => exact .inl (.object o (by simpa using h) htype)
  | frame f => exact .inl (.frame f)
  | newVariable id name v h => exact .inl (.newVariable id name v (by simpa using h))
  | write cell v h => exact .inl (.write cell v (by simpa using h))
  | field id name v h hopen => exact .inl (.field id name v (by simpa using h) hopen)
  | advance id items index hitems hindex hlt hid hstill =>
    by_cases hadvanced : id ∈ rests
    · exact .inr ⟨id, hadvanced, hstill, items, index, hitems, hindex, hlt, rfl⟩
    · exact .inl (.advance id items index hitems hindex hlt hid hadvanced)
  | editList id f hid h => exact .inl (.editList id f hid (by simpa using h))
  | editDict id f h => exact .inl (.editDict id f (by simpa using h))
  | handles hs => exact .inl (.handles hs)

/-- A step leaves the fields of an iterator that is still and used as usual. -/
theorem Move.sealedField (h : s.Move V t) (hs : s.Sound V) {id : Nat} (hsealed : id ∈ V.sealed)
    (hstill : id ∈ V.still) {name : String} (hname : name ∈ "next" :: iteratorFields) :
    t.field? id name = s.field? id name := by
  cases h with
  | object o => exact field?_push (hs.sealed id hsealed).1 o name
  | field id' name' v _ hopen =>
    apply field?_put_of_ne
    rintro rfl rfl
    rcases List.mem_cons.mp hname with heq | hfield
    · exact (hopen.2 hsealed).1 heq
    · exact (hopen.2 hsealed).2 hfield
  | advance id' items index _ _ _ _ hstill' =>
    apply field?_put_of_ne
    rintro rfl
    exact absurd hstill hstill'
  | _ => rfl

/-- Such an iterator stands where it stood. -/
theorem StandsAt.rest (h : s.StandsAt it own xs position) (hs : s.Sound V) (hst : s.Move V t)
    (hown : own ∈ V.lists) (hit : it ∈ V.sealed) (hstill : it ∈ V.still) :
    t.StandsAt it own xs position := by
  constructor
  · exact h.lt.trans_le hst.persists.instances_size
  · exact (hst.persists.typeOf h.lt).trans h.type
  · exact (hst.sealedField hs hit hstill (by decide)).trans h.next
  · exact (hst.sealedField hs hit hstill (by decide)).trans h.items
  · exact (hst.sealedField hs hit hstill (by decide)).trans h.index
  · exact (hst.hiddenList hs hown).trans h.elements
  · exact h.le

/-! ### Elements handed out -/

/-- In steps of a program, an iterator hands out some elements, one after another. -/
inductive Yields (own it : Nat) (s : Store) : List Value → Store → Prop
  | start : Yields own it s [] s
  | step {out : List Value} {t u : Store} : Yields own it s out t →
      t.Move (.sealing own it {it}) u → Yields own it s out u
  | next {out : List Value} {m n : Machine} {span : Span} {k : Nat} {x : Value} :
      Yields own it s out m.store → Evaluator.iteratorNext it span m = .ok (.item k x) n →
      Yields own it s (out ++ [x]) n.store

theorem Yields.trans (h : s.Yields own it out t) (h' : t.Yields own it more u) :
    s.Yields own it (out ++ more) u := by
  induction h' with
  | start => simpa using h
  | step _ move ih => exact ih.step move
  | next _ hnext ih =>
    rw [← List.append_assoc]
    exact ih.next hnext

/-- What an iterator hands out are the elements after its position, and then it stands behind
those. -/
theorem Yields.standsAt (h : s.Yields own it out t) {rests : Set Nat}
    (hs : s.Sound (.sealing own it rests)) (hstands : s.StandsAt it own xs position)
    (hsize : xs.size < 2 ^ 63) :
    t.Sound (.sealing own it {it}) ∧ t.StandsAt it own xs (position + out.length) ∧
      out <+: xs.toList.drop position := by
  induction h with
  | start => exact ⟨hs.letRest, hstands, List.nil_prefix⟩
  | step _ move ih =>
    obtain ⟨hsound, hstands, hfirst⟩ := ih
    exact ⟨move.sound hsound, hstands.rest hsound move rfl rfl rfl, hfirst⟩
  | @next out m n span k x _ hnext ih =>
    obtain ⟨hsound, hstands, hfirst⟩ := ih
    rcases Nat.lt_or_eq_of_le hstands.le with hlt | heq
    · rw [Evaluator.iteratorNext_of_lt hstands hlt hsize] at hnext
      cases hnext
      refine ⟨hsound.advanced it _, ?_, ?_⟩
      · rw [List.length_append, ← Nat.add_assoc]
        exact hstands.advanced hlt
      · rw [List.prefix_iff_eq_take] at hfirst ⊢
        rw [List.length_append, List.length_singleton, List.take_add_one, ← hfirst,
          List.getElem?_drop]
        simp [hlt]
    · rw [heq] at hstands
      rw [Evaluator.iteratorNext_of_eq hstands hsize] at hnext
      cases hnext

/-- Where steps lead to while an iterator is used as usual, it hands out some elements, but none if
it is to be still. -/
theorem Moves.yields {rests : Set Nat} (h : s.Moves (.sealing own it rests) t)
    (hs : s.Sound (.sealing own it rests)) (hstands : s.StandsAt it own xs position)
    (hsize : xs.size < 2 ^ 63) :
    ∃ out, s.Yields own it out t ∧ (it ∈ rests → out = []) := by
  induction h with
  | refl => exact ⟨[], .start, fun _ => rfl⟩
  | @tail t u moves move ih =>
    obtain ⟨out, hyields, hnone⟩ := ih
    rcases move.letRest {it} with hstep | ⟨it, rfl, hadvances, items, index, hadvance⟩
    · exact ⟨out, hyields.step hstep, hnone⟩
    · obtain ⟨hitems, hindex, hlt, rfl⟩ := hadvance
      obtain ⟨hsound, hstands, -⟩ := hyields.standsAt hs hstands hsize
      -- the step is what a call of `next` does
      obtain rfl : own = items := by simpa using hstands.items.symm.trans hitems
      obtain rfl : Int64.ofNat (position + out.length) = index := by
        simpa using hstands.index.symm.trans hindex
      have hmore : position + out.length < xs.size := by
        refine Nat.lt_of_le_of_ne hstands.le fun heq => ?_
        rw [hstands.list, heq, Int64.toInt_ofNat_of_lt hsize] at hlt
        exact lt_irrefl _ hlt
      let m : Machine := ⟨t, "", #[], []⟩
      have hstands' : m.store.StandsAt it own xs (position + out.length) := hstands
      have hnext := Evaluator.iteratorNext_of_lt hstands' hmore hsize default
      exact ⟨_, hyields.next hnext, fun hrests => absurd hrests hadvances⟩

end Store

/-! ### Programs that use an iterator as usual -/

/-- Attributes of an iterator are refused unless code gets `next` or `iter`. If it is to rest, then
so are calls that advance it. -/
def Refusal.discreet (it : Nat) (rests : Bool) : Refusal where
  call _ callee arguments :=
    rests && (Evaluator.nativeCall? callee arguments).any fun (f, all) =>
      decide (f = .builtin (.iterator .next) ∧ all.head? = some (.object it))
  access object name sets :=
    decide (object = .object it ∧ ¬(sets = false ∧ (name = "next" ∨ name = "iter")))

theorem Refusal.discreet_upholds (own it : Nat) (rests : Bool) :
    (discreet it rests).Upholds (.sealing own it {id | rests = true ∧ id = it}) where
  access {object name sets} h := by
    intro id hid hobject
    rw [Set.mem_singleton_iff.mp hid] at hobject
    simp only [discreet, hobject, true_and, decide_eq_false_iff_not, not_not] at h
    exact h
  call {s callee arguments f all} h hcall _ := by
    constructor
    · exact fun _ _ _ _ => trivial
    · rintro rfl id hhead ⟨hrests, hid⟩
      simp [discreet, hrests, hcall, hhead, hid] at h

namespace Deed

variable {settings : Settings} {fuel : Nat} {deed : Deed} {m : Machine}

/-- If that can be done without what is refused, then in its course the iterator hands out some
elements, but none if it is to rest. -/
theorem run_yields (hhosts : ∀ f ∈ settings.hosts, f.Honest) (hc : deed.Checked)
    (hm : m.store.Checked) (hknown : deed.Known (.sealing own it ∅) m.store) {rests : Set Nat}
    (hs : m.store.Sound (.sealing own it rests)) (hstands : m.store.StandsAt it own xs position)
    (hsize : xs.size < 2 ^ 63) {still : Bool}
    (hdiscreet : ∀ n,
      deed.run (.refusing (.discreet it still) settings fuel) m ≠ .error .defect n) :
    ∃ out, m.store.Yields own it out ((deed.run (.ofFuel settings fuel)).after m).store ∧
      (still = true → out = []) := by
  have hev := Evaluator.refusing_keeps (Refusal.discreet_upholds own it still) hhosts fuel
  have hrun := (run_runs hev hknown.letRest).now hs.letRest
  have hsame : deed.run (.ofFuel settings fuel) m =
      deed.run (.refusing (.discreet it still) settings fuel) m := by
    have hlapse : deed.run (.ofFuel settings fuel) m =
        deed.run (.refusing (.discreet it still) settings fuel) m ∨
          (∃ n, deed.run (.refusing (.discreet it still) settings fuel) m = .error .defect n) ∧
            (False → EndsUncaused (deed.run (.ofFuel settings fuel) m)) :=
      run_refusing (fun h => h.elim) hc hm
    rcases hlapse with hsame | ⟨⟨n, hdefect⟩, -⟩
    · exact hsame
    · exact absurd hdefect (hdiscreet n)
  have hmoves : m.store.Moves (.sealing own it {id | still = true ∧ id = it})
      ((deed.run (.ofFuel settings fuel)).after m).store := by
    unfold Eval.after
    rw [hsame]
    exact hrun.follows.store
  obtain ⟨out, hyields, hnone⟩ := hmoves.yields hs.letRest hstands hsize
  exact ⟨out, hyields, fun hstill => hnone ⟨hstill, rfl⟩⟩

end Deed
end Rill
