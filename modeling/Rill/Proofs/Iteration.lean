import Rill.Proofs.Exceptions
import Rill.Proofs.Iteration.Yields

/-! Iteration over the contents of a value is over those that it has when that begins. -/
namespace Rill

open Syntax (Expr Ident Stmt)
open Text (Span)
open Eval Evaluator Veil

variable {settings : Settings} {m n : Machine} {xs : Array Value} {it own : Nat} {s : Store}
  {out more : List Value}

namespace Store

/-- A program leads from one store to another, and in its course an iterator hands out some
elements. -/
structure HandsOut (own it : Nat) (s : Store) (out : List Value) (t : Store) : Prop where
  leads : s.Leads t
  yields : s.Yields own it out t

theorem HandsOut.start : s.HandsOut own it [] s := ⟨.refl, .start⟩

theorem HandsOut.trans {t u : Store} (h : s.HandsOut own it out t) (h' : t.HandsOut own it more u) :
    s.HandsOut own it (out ++ more) u :=
  ⟨h.leads.trans h'.leads, h.yields.trans h'.yields⟩

theorem advanced_leads (s : Store) (it position : Nat) : s.Leads (s.advanced it position) := by
  have hfield := Step.field (s := s) it "__index__" (.int (Int64.ofNat position + 1))
  exact (Relation.ReflTransGen.single hfield).tail .item

end Store

namespace Evaluator

/-- A method of lists is bound to the list through which it is found. -/
theorem getAttribute_list {V : Veil} (hm : m.store.Sound V) (id : Nat) (f : ListMethod)
    (span : Span) :
    getAttribute (.list id) f.word span m = .ok (f.boundTo id) m := by
  rw [← f.name_eq_word]
  have hb : (Session.builtinClass .list).attributes.get? f.name =
      some (.native (.builtin (.list f))) := by
    cases f <;> decide +kernel
  have hclass : classOf? m.store (.list id) = some BuiltinClass.list.number := rfl
  exact getAttribute_builtin hm hclass nofun hb span

/-- A call of `map` that ends well has as many results as there were elements. -/
theorem size_of_map {f : Value} {ev : Evaluator} {frame : CallFrame} {span : Span}
    {xs : List Value} {v : Value}
    (h : inCall frame (do let ys ← xs.mapM fun x => ev.call f [x] span
                          Store.newList ys.toArray) m = .ok v n) :
    ∃ id, v = .list id ∧ (n.store.list id).size = xs.length := by
  cases hbody : (do let ys ← xs.mapM fun x => ev.call f [x] span
                    Store.newList ys.toArray : Eval Value)
      { m with calls := m.calls.push frame } with
  | ok w o =>
    obtain ⟨ys, p, hys, hlist⟩ := of_bind_eq_ok hbody
    rw [inCall_of_ok hbody] at h
    cases hlist
    cases h
    refine ⟨p.store.lists.size, rfl, ?_⟩
    rw [← length_of_mapM_eq_ok hys]
    simp [Store.list]
  | error halt o =>
    rw [inCall_of_error hbody] at h
    cases h

/-- The methods of a list that call a function do so for each of some elements, in order, up to the
first failure. -/
structure CallsEach (settings : Settings) (fuel id : Nat) (f : Value) (xs : List Value)
    (span : Span) (m : Machine) : Prop where
  map : (ofFuel settings (fuel + 1)).call (ListMethod.map.boundTo id) [f] span m =
    inCall ⟨"map", span⟩ (do
      let ys ← xs.mapM fun x => (ofFuel settings fuel).call f [x] span
      Store.newList ys.toArray) m
  /-- There are as many results as elements. -/
  map_size : ∀ v n, (ofFuel settings (fuel + 1)).call (ListMethod.map.boundTo id) [f] span m =
    .ok v n → ∃ ys, v = .list ys ∧ (n.store.list ys).size = xs.length
  filter : (ofFuel settings (fuel + 1)).call (ListMethod.filter.boundTo id) [f] span m =
    inCall ⟨"filter", span⟩ (do
      let ys ← xs.filterM fun x => do
        (ofFuel settings fuel).truthy (← (ofFuel settings fuel).call f [x] span) span
      Store.newList ys.toArray) m
  reduce : ∀ initial,
    (ofFuel settings (fuel + 1)).call (ListMethod.reduce.boundTo id) [f, initial] span m =
      inCall ⟨"reduce", span⟩
        (xs.foldlM (fun acc x => (ofFuel settings fuel).call f [acc, x] span) initial) m
  /-- Without a value to begin with, that is the first element. -/
  reduce_first : (ofFuel settings (fuel + 1)).call (ListMethod.reduce.boundTo id) [f] span m =
    inCall ⟨"reduce", span⟩
      (match xs with
        | [] => invalid "reduce of an empty list needs an initial value." span
        | x :: xs => xs.foldlM (fun acc x => (ofFuel settings fuel).call f [acc, x] span) x) m

/-- They do so for the elements that the list has when they are called. -/
theorem callsEach {fuel : Nat} (hdepth : m.calls.size < settings.maxCallDepth) (id : Nat)
    (f : Value) (span : Span) :
    CallsEach settings fuel id f (m.store.list id).toList span m := by
  have hmap : (ofFuel settings (fuel + 1)).call (ListMethod.map.boundTo id) [f] span m =
      inCall ⟨"map", span⟩ (do
        let ys ← (m.store.list id).toList.mapM fun x => (ofFuel settings fuel).call f [x] span
        Store.newList ys.toArray) m :=
    call_listMethod rfl hdepth span fun calls => listMethod_map _ id f span { m with calls }
  constructor
  · exact hmap
  · intro v n hn
    exact size_of_map (hmap.symm.trans hn)
  · exact call_listMethod rfl hdepth span fun calls =>
      listMethod_filter _ id f span { m with calls }
  · intro initial
    exact call_listMethod rfl hdepth span fun calls =>
      listMethod_reduce _ id f initial span { m with calls }
  · exact call_listMethod rfl hdepth span fun calls =>
      listMethod_reduce_first _ id f span { m with calls }

end Evaluator

namespace Store

variable {v : Value}

section

variable (hs : m.store.Sound .lifted) (hv : m.store.elements? v = some xs)
  (hsize : xs.size < 2 ^ 63)

include hs hv hsize

/-- Where a new iterator has handed out some elements, those are the first, and it stands behind
them. -/
theorem HandsOut.standsAt
    (h : (m.store.withIterator xs).HandsOut m.store.lists.size m.store.instances.size out s) :
    s.Sound (.sealing m.store.lists.size m.store.instances.size {m.store.instances.size}) ∧
      s.StandsAt m.store.instances.size m.store.lists.size xs out.length ∧ out <+: xs.toList := by
  have hsound : (m.store.withIterator xs).Sound
      (.sealing m.store.lists.size m.store.instances.size ∅) :=
    hs.withIterator (hs.elements? hv) rfl (Set.empty_subset _) subset_rfl (.inr rfl)
  simpa using h.yields.standsAt hsound (withIterator_standsAt m.store xs) hsize

/-- To call `next` hands out one more, if there is one. -/
theorem HandsOut.call_next
    (h : (m.store.withIterator xs).HandsOut m.store.lists.size m.store.instances.size out n.store)
    (hdepth : n.calls.size + 1 < settings.maxCallDepth) (span : Span) (fuel : Nat) :
    let it := Value.object m.store.instances.size
    let next := (ofFuel settings (fuel + 2)).call (.native (.builtin (.global .next))) [it] span n
    (∀ x, xs[out.length]? = some x → ∃ o, next = .ok (.item n.store.items x) o ∧
      (m.store.withIterator xs).HandsOut m.store.lists.size m.store.instances.size (out ++ [x])
        o.store) ∧
    (xs[out.length]? = none → next = .ok .null n) ∧
    (ofFuel settings (fuel + 2)).callMethod it "next" [] span n = next := by
  obtain ⟨hsound, hstands, -⟩ := h.standsAt hs hv hsize
  have hnext := Evaluator.call_next hsound hstands hdepth hsize span fuel
  refine ⟨fun x hx => ?_, fun hend => ?_, ?_⟩
  · obtain ⟨hlt, rfl⟩ := Array.getElem?_eq_some_iff.mp hx
    have hleads := h.leads.trans (advanced_leads n.store m.store.instances.size out.length)
    have hyields := h.yields.next (iteratorNext_of_lt hstands hlt hsize span)
    rw [nextAt_of_lt hlt] at hnext
    exact ⟨_, hnext, hleads, hyields⟩
  · rw [nextAt_of_le (Array.getElem?_eq_none_iff.mp hend)] at hnext
    exact hnext
  · have hmethod := callMethod_next hsound hstands (Nat.lt_of_succ_lt hdepth) hsize span (fuel + 1)
    exact hmethod.trans hnext.symm

/-- What a program does that uses the iterator only through `next` and `iter` hands out some more,
but nothing if it does not advance the iterator. -/
theorem HandsOut.run (hhosts : ∀ f ∈ settings.hosts, f.Honest) (hm : m.store.Checked)
    (h : (m.store.withIterator xs).HandsOut m.store.lists.size m.store.instances.size out n.store)
    {deed : Deed} (hc : deed.Checked)
    (hknown : deed.Known (.sealing m.store.lists.size m.store.instances.size ∅) n.store)
    {rests : Bool} {fuel : Nat}
    (hdiscreet : ∀ o, deed.run
      (.refusing (.discreet m.store.instances.size rests) settings fuel) n ≠ .error .defect o) :
    ∃ more, (m.store.withIterator xs).HandsOut m.store.lists.size m.store.instances.size
        (out ++ more) ((deed.run (.ofFuel settings fuel)).after n).store ∧
      (rests = true → more = []) := by
  obtain ⟨hsound, hstands, -⟩ := h.standsAt hs hv hsize
  have hstart : (m.store.withIterator xs).Checked := hm
  have hn : n.store.Checked := h.leads.checked hstart
  have hwithin := Deed.run_within settings fuel hc hn
  obtain ⟨more, hyields, hnone⟩ :=
    Deed.run_yields hhosts hc hn hknown hsound hstands hsize hdiscreet
  exact ⟨more, h.trans ⟨hwithin.leads.toStore, hyields⟩, hnone⟩

end

end Store

/-- Iteration is over the elements that a value has when it begins, whatever becomes of the value
then. A `for`-loop does for each of them, in order, what it would do if they were known beforehand,
until it is left. The methods `map`, `filter` and `reduce` call their function for each of them.
What an iterator hands out, as long as a program uses it only through `next` and `iter`, are the
first of them; to call `next` gives the one after those, or `null` past the last, and without such
a call nothing is handed out. A call too many is a stack overflow. -/
theorem iteration_of_snapshot (hhosts : ∀ f ∈ settings.hosts, f.Honest) {session : Session}
    (h : session.Arises settings) (hm : session.machine.store.Reaches m.store) (fuel : Nat)
    (span : Span) :
    let ev := ofFuel settings (fuel + 2)
    (∀ (env : Nat) (element : Ident) (iterable : Expr) (body : List Stmt) (v : Value)
      (xs : Array Value) (n : Machine), iterable.eval ev env m = .ok v n →
      n.store.elements? v = some xs → xs.size < 2 ^ 63 →
      let loop := (Stmt.forEach element iterable body span).exec ev env m
      (n.calls.size < settings.maxCallDepth →
        loop = Syntax.eachOf (fun position => Store.advance n.store.instances.size position)
          (fun x => Store.bind env element.name x) (Syntax.execAll ev env body) (fuel + 1) 0
          xs.toList { n with store := n.store.withIterator xs }) ∧
      (settings.maxCallDepth ≤ n.calls.size → Overflows settings.maxCallDepth loop)) ∧
    (∀ (id : Nat) (f : Value),
      (∀ b : ListMethod, getAttribute (.list id) b.word span m = .ok (b.boundTo id) m) ∧
      (m.calls.size < settings.maxCallDepth →
        CallsEach settings (fuel + 1) id f (m.store.list id).toList span m) ∧
      (settings.maxCallDepth ≤ m.calls.size → ∀ (b : ListMethod) arguments,
        Overflows settings.maxCallDepth (ev.call (b.boundTo id) arguments span m))) ∧
    (∀ (v : Value) (xs : Array Value), m.store.elements? v = some xs → xs.size < 2 ^ 63 →
      let it := m.store.instances.size
      let own := m.store.lists.size
      let fresh := m.store.withIterator xs
      (m.calls.size + 1 < settings.maxCallDepth →
        ev.call (.native (.builtin (.global .iter))) [v] span m =
          .ok (.object it) { m with store := fresh }) ∧
      ∀ (out : List Value) (n : Machine), fresh.HandsOut own it out n.store →
        out <+: xs.toList ∧
        (n.calls.size + 1 < settings.maxCallDepth →
          let next := ev.call (.native (.builtin (.global .next))) [.object it] span n
          (∀ x, xs[out.length]? = some x → ∃ o, next = .ok (.item n.store.items x) o ∧
            fresh.HandsOut own it (out ++ [x]) o.store) ∧
          (xs[out.length]? = none → next = .ok .null n) ∧
          ev.callMethod (.object it) "next" [] span n = next) ∧
        ∀ (deed : Deed) (rests : Bool), deed.Checked → deed.Known (.sealing own it ∅) n.store →
          (∀ o, deed.run (.refusing (.discreet it rests) settings fuel) n ≠ .error .defect o) →
          ∃ more, fresh.HandsOut own it (out ++ more)
              ((deed.run (.ofFuel settings fuel)).after n).store ∧
            (rests = true → more = [])) := by
  intro ev
  have hs : m.store.Sound .lifted := Store.Moves.sound hm.moves (h.sound hhosts)
  refine ⟨?_, ?_, ?_⟩
  · intro env element iterable body v xs n hiterable hv hsize loop
    have hev : Veil.lifted.Governs ev := ofFuel_keeps trivial rfl rfl hhosts (fuel + 2)
    have hn : n.store.Sound .lifted :=
      (((iterable.eval_runs hev env).now hs).of_ok hiterable).1.sound hs
    constructor
    · exact Stmt.exec_forEach hhosts hiterable hn hv hsize
    · exact Stmt.exec_forEach_overflow hiterable hn hv
  · intro id f
    exact ⟨fun b => getAttribute_list hs id b span, fun hdepth => callsEach hdepth id f span,
      fun hdepth b arguments => call_overflow hdepth _ arguments span⟩
  · intro v xs hv hsize it own fresh
    refine ⟨fun hdepth => call_iter hs hv hdepth span fuel, fun out n hout => ?_⟩
    refine ⟨(hout.standsAt hs hv hsize).2.2, fun hdepth => ?_, fun deed rests hc hknown => ?_⟩
    · exact hout.call_next hs hv hsize hdepth span fuel
    · exact hout.run hs hv hsize hhosts (hm.leads.checked h.reachable.checked) hc hknown

/-- Whether a computation came to an end that is no halt. -/
def Eval.succeeds {α : Type} : EStateM.Result Halt Machine α → Bool
  | .ok _ _ => true
  | .error _ _ => false

/-- A list grows while it is iterated over: by the body of a loop, by the function that `map` calls,
and between two calls of `next`. -/
theorem iteration_of_snapshot_growing :
    let settings : Settings := ⟨9, false, fun _ => .error "no such file", #[]⟩
    let m := ((Session.start settings).runWith (.ofFuel settings 9)
      "xs = [1, 2] fun grow(x) \x7b xs.push(x) return x \x7d").2.machine
    let ev := ofFuel settings 9
    let place : Span := ⟨0, 0⟩
    let body := [Stmt.expr (.call (.atom (.var "grow") place) [.atom (.var "x") place] place)]
    let loop := (Stmt.forEach ⟨"x", place⟩ (.atom (.var "xs") place) body place).exec ev globals
    let grow := Deed.call (.function 0) [.int 3] place
    let map := ev.call (ListMethod.map.boundTo 0) [.function 0] place
    let it := m.store.instances.size
    let started := { m with store := m.store.withIterator #[.int 1, .int 2] }
    let n := (grow.run (.ofFuel settings 7)).after started
    (m.store.list 0 = #[.int 1, .int 2] ∧
      loop m = Syntax.eachOf (fun position => Store.advance it position)
        (fun x => Store.bind globals "x" x) (Syntax.execAll ev globals body) 8 0 [.int 1, .int 2]
        started ∧
      (loop.after m).store.list 0 = #[.int 1, .int 2, .int 1, .int 2]) ∧
    (∃ id o, map m = .ok (.list id) o ∧ (o.store.list id).size = 2 ∧
      (o.store.list 0).size = 4) ∧
    ((n.store.list 0).size = 3 ∧ ∃ o,
      ev.call (.native (.builtin (.global .next))) [.object it] place n =
        .ok (.item n.store.items (.int 1)) o) := by
  intro settings m ev place body loop grow map it started n
  have hhosts : ∀ f ∈ settings.hosts, f.Honest := by simp [settings]
  have harises := Session.Arises.run 9 "xs = [1, 2] fun grow(x) \x7b xs.push(x) return x \x7d"
    (Session.Arises.start : (Session.start settings).Arises settings)
  obtain ⟨hloops, hmethods, hiterators⟩ :=
    iteration_of_snapshot hhosts harises (.refl m.store) 7 place
  have hevaluated :
      m.store.list 0 = #[.int 1, .int 2] ∧ m.calls.size = 0 ∧
      m.store.read? globals "xs" = some (.list 0) ∧
      (loop.after m).store.list 0 = #[.int 1, .int 2, .int 1, .int 2] ∧
      Eval.succeeds (map m) = true ∧ ((map.after m).store.list 0).size = 4 ∧
      Eval.succeeds (grow.run (.refusing (.discreet it true) settings 7) started) = true ∧
      (n.store.list 0).size = 3 ∧ n.calls.size = 0 := by
    decide +kernel
  obtain ⟨hlist, hcalls, hread, hlooped, hmapped, hlonger, hdiscreet, hgrown, hcalls'⟩ := hevaluated
  have hv : m.store.elements? (.list 0) = some #[.int 1, .int 2] := congrArg some hlist
  have hiterable : (Expr.atom (.var "xs") place).eval ev globals m = .ok (.list 0) m := by
    have hstore : store m = .ok m.store m := rfl
    change Syntax.readVariable globals "xs" place m = _
    unfold Syntax.readVariable
    rw [bind_of_ok hstore, hread]
    rfl
  have hdepth : m.calls.size + 1 < settings.maxCallDepth := by
    rw [hcalls]
    decide
  refine ⟨⟨hlist, ?_, hlooped⟩, ?_, ?_⟩
  · exact (hloops globals _ _ body _ _ m hiterable hv (by decide)).1 (Nat.lt_of_succ_lt hdepth)
  · cases hrun : map m with
    | error halt o => simp [Eval.succeeds, hrun] at hmapped
    | ok v o =>
      have hsize : (o.store.list 0).size = 4 := by simpa [Eval.after, hrun] using hlonger
      have heach := (hmethods 0 (.function 0)).2.1 (Nat.lt_of_succ_lt hdepth)
      obtain ⟨id, rfl, hid⟩ := heach.map_size v o hrun
      exact ⟨id, o, rfl, hid.trans (by rw [hlist]; rfl), hsize⟩
  · obtain ⟨-, hyields⟩ := hiterators (.list 0) _ hv (by decide)
    obtain ⟨-, -, hdeeds⟩ := hyields [] started .start
    have hknown : grow.Known (.sealing m.store.lists.size it ∅) started.store :=
      ⟨trivial, by simp [Value.Known]⟩
    have hnodefect : ∀ o, grow.run (.refusing (.discreet it true) settings 7) started ≠
        .error .defect o := by
      intro o ho
      simp [Eval.succeeds, ho] at hdiscreet
    obtain ⟨more, hout, hnone⟩ := hdeeds grow true trivial hknown hnodefect
    rw [hnone rfl] at hout
    have hdepth' : n.calls.size + 1 < settings.maxCallDepth := by
      rw [hcalls']
      decide
    obtain ⟨o, hnext, -⟩ := ((hyields [] n hout).2.1 hdepth').1 (.int 1) rfl
    exact ⟨hgrown, o, hnext⟩

end Rill
