import Rill.Proofs.Datum.Literal
import Rill.Proofs.Frames
import Rill.Session

/-! A program that is the text of plain data gives these data. -/
namespace Rill

namespace Store

/-- The later store has the same lists and dicts as before, and may have further ones. -/
structure Grows (s t : Store) : Prop where
  lists {id : Nat} {elements : Array Value} : s.lists[id]? = some elements →
    t.lists[id]? = some elements
  dicts {id : Nat} {table : Table Key Value} : s.dicts[id]? = some table →
    t.dicts[id]? = some table

namespace Grows

variable {s t u : Store}

theorem refl (s : Store) : s.Grows s := ⟨id, id⟩

theorem trans (h : s.Grows t) (h' : t.Grows u) : s.Grows u :=
  ⟨fun hid => h'.lists (h.lists hid), fun hid => h'.dicts (h.dicts hid)⟩

theorem push_list (s : Store) (elements : Array Value) :
    s.Grows { s with lists := s.lists.push elements } :=
  ⟨fun h => getElem?_push_of_some h elements, id⟩

theorem push_dict (s : Store) (table : Table Key Value) :
    s.Grows { s with dicts := s.dicts.push table } :=
  ⟨id, fun h => getElem?_push_of_some h table⟩

end Grows

variable {s t : Store}

mutual

theorem Holds.mono {v : Value} {d : Datum} (hv : s.Holds v d) (h : s.Grows t) : t.Holds v d := by
  cases hv with
  | null => exact .null
  | bool => exact .bool
  | int hi => exact .int hi
  | str => exact .str
  | list hid hall => exact .list (h.lists hid) (hall.mono h)
  | dict hid hkeys hentries => exact .dict (h.dicts hid) hkeys (hentries.mono h)

theorem HoldsAll.mono {vs : List Value} {ds : List Datum} (hvs : s.HoldsAll vs ds)
    (h : s.Grows t) : t.HoldsAll vs ds := by
  cases hvs with
  | nil => exact .nil
  | cons hv hvs => exact .cons (hv.mono h) (hvs.mono h)

theorem HoldsEntries.mono {es : List (Key × Value)} {ds : List (Datum × Datum)}
    (hes : s.HoldsEntries es ds) (h : s.Grows t) : t.HoldsEntries es ds := by
  cases hes with
  | nil => exact .nil
  | cons hk hv hes => exact .cons (hk.mono h) (hv.mono h) (hes.mono h)

end

/-- A value that is the same atom as a key is that key. -/
theorem Holds.key_of_toValue {key : Key} {v : Value} {k : Datum} (hk : s.Holds key.toValue k)
    (hv : t.Holds v k) : v = key.toValue ∧ Key.ofValue? v = some key := by
  cases key <;> cases hk <;> cases hv <;> exact ⟨rfl, rfl⟩

end Store

/-! ### Expressions up to their places -/

namespace Syntax.Expr

variable {e : Expr}

theorem eq_atom_of_bare {a : Atom} {s : Text.Span} (h : e.bare = (Expr.atom a s).bare) :
    ∃ span, e = .atom a span := by
  cases e with
  | atom b span =>
    cases h
    exact ⟨span, rfl⟩
  | _ => cases h

theorem eq_unary_of_bare {op : UnaryOp} {x : Expr} {s : Text.Span}
    (h : e.bare = (Expr.unary op x s).bare) : ∃ y span, e = .unary op y span ∧ y.bare = x.bare := by
  cases e with
  | unary op' y span =>
    simp only [bare, unary.injEq, and_true] at h
    exact ⟨y, span, by rw [h.1], h.2⟩
  | _ => cases h

theorem eq_list_of_bare {xs : List Expr} {s : Text.Span} (h : e.bare = (Expr.list xs s).bare) :
    ∃ ys span, e = .list ys span ∧ bareAll ys = bareAll xs := by
  cases e with
  | list ys span =>
    simp only [bare, list.injEq, and_true] at h
    exact ⟨ys, span, rfl, h⟩
  | _ => cases h

theorem eq_dict_of_bare {xs : List (Expr × Expr)} {s : Text.Span}
    (h : e.bare = (Expr.dict xs s).bare) :
    ∃ ys span, e = .dict ys span ∧ bareEntries ys = bareEntries xs := by
  cases e with
  | dict ys span =>
    simp only [bare, dict.injEq, and_true] at h
    exact ⟨ys, span, rfl, h⟩
  | _ => cases h

end Syntax.Expr

namespace Datum

open Syntax (Expr bareAll bareEntries)

mutual

/-- The expression for a datum has nothing in it that could be misplaced. -/
theorem check_expr : (d : Datum) → {e : Expr} → e.bare = d.expr.bare → e.check = .ok ()
  | .null, _, h | .bool _, _, h | .str _, _, h => by
    obtain ⟨span, rfl⟩ := Expr.eq_atom_of_bare h
    rfl
  | .int i, _, h => by
    unfold expr at h
    dsimp only at h
    split at h
    · obtain ⟨x, span, rfl, hx⟩ := Expr.eq_unary_of_bare h
      obtain ⟨span', rfl⟩ := Expr.eq_atom_of_bare hx
      rfl
    · obtain ⟨span, rfl⟩ := Expr.eq_atom_of_bare h
      rfl
  | .list ds, _, h => by
    obtain ⟨es, span, rfl, hes⟩ := Expr.eq_list_of_bare h
    exact check_exprs ds hes
  | .dict ds, _, h => by
    obtain ⟨es, span, rfl, hes⟩ := Expr.eq_dict_of_bare h
    exact check_entryExprs ds hes

theorem check_exprs : (ds : List Datum) → {es : List Expr} → bareAll es = bareAll (exprs ds) →
    Syntax.checkExprs es = .ok ()
  | [], [], _ => rfl
  | d :: ds, e :: es, h => by
    obtain ⟨he, hes⟩ := List.cons.inj h
    rw [Syntax.checkExprs, check_expr d he]
    exact check_exprs ds hes

theorem check_entryExprs : (ds : List (Datum × Datum)) → {es : List (Expr × Expr)} →
    bareEntries es = bareEntries (entryExprs ds) → Syntax.checkEntries es = .ok ()
  | [], [], _ => rfl
  | (k, d) :: ds, (e, e') :: es, h => by
    obtain ⟨he, hes⟩ := List.cons.inj h
    obtain ⟨hk, hd⟩ := Prod.mk.inj he
    rw [Syntax.checkEntries, check_expr k hk, check_expr d hd]
    exact check_entryExprs ds hes

end

end Datum

/-! ### Evaluation -/

namespace Eval

variable {α β : Type} {m : Machine} {Q : Store → α → Prop} {R : Store → β → Prop}

/-- The computation succeeds and keeps the lists and dicts that there are. Of its result and the store
that it leaves, `Q` holds. -/
def Yields (m : Machine) (x : Eval α) (Q : Store → α → Prop) : Prop :=
  ∃ a n, x m = .ok a n ∧ m.store.Grows n.store ∧ Q n.store a

namespace Yields

theorem of_eq {x : Eval α} {a : α} (h : x m = .ok a m) (hq : Q m.store a) : Yields m x Q :=
  ⟨a, m, h, .refl _, hq⟩

theorem pure {a : α} (h : Q m.store a) : Yields m (pure a) Q := of_eq rfl h

theorem bind {x : Eval α} {f : α → Eval β} (hx : Yields m x Q)
    (hf : ∀ a n, m.store.Grows n.store → Q n.store a → Yields n (f a) R) :
    Yields m (x >>= f) R := by
  obtain ⟨a, n, hxa, hgrows, hq⟩ := hx
  obtain ⟨b, o, hfb, hgrows', hr⟩ := hf a n hgrows hq
  exact ⟨b, o, by rw [bind_of_ok hxa, hfb], hgrows.trans hgrows', hr⟩

theorem newList {vs : List Value} {ds : List Datum} (h : m.store.HoldsAll vs ds) :
    Yields m (Store.newList vs.toArray) fun s w => s.Holds w (.list ds) := by
  have hgrows := Store.Grows.push_list m.store vs.toArray
  exact ⟨_, _, rfl, hgrows, .list Array.getElem?_push_size (h.mono hgrows)⟩

theorem newDict {table : Table Key Value} {ds : List (Datum × Datum)} (hkeys : table.keys.Nodup)
    (h : m.store.HoldsEntries table.toList ds) :
    Yields m (Store.newDict table) fun s w => s.Holds w (.dict ds) := by
  have hgrows := Store.Grows.push_dict m.store table
  exact ⟨_, _, rfl, hgrows, .dict Array.getElem?_push_size hkeys (h.mono hgrows)⟩

end Yields
end Eval

namespace Exact

theorem ofNat_natAbs {i : Int64} (h : 0 ≤ i.toInt) : Int64.ofNat i.toInt.natAbs = i := by
  have hmax := Int64.toInt_lt i
  rw [← Int64.toInt_inj, Int64.toInt_ofNat_of_lt (by omega)]
  omega

/-- An integer is what the minus makes of its size. -/
theorem neg?_ofNat_natAbs {i : Int64} (hneg : i.toInt < 0) (h : Int64.minValue < i) :
    neg? (Int64.ofNat i.toInt.natAbs) = some i := by
  have hmin := Int64.lt_iff_toInt_lt.mp h
  have hmin' := Int64.toInt_minValue
  have hmax := Int64.toInt_maxValue
  have hsize : -(Int64.ofNat i.toInt.natAbs).toInt = i.toInt := by
    rw [Int64.toInt_ofNat_of_lt (by omega)]
    omega
  rw [neg?, hsize, ofInt?, if_pos (by omega), Int64.ofInt_toInt]

end Exact

namespace Store

open Syntax (Expr bareAll bareEntries evalAll evalEntries)
open Datum (exprs entryExprs)
open Eval (Yields)

variable {s : Store}

/-- The expression for an integer gives that integer. -/
theorem eval_int (ev : Evaluator) (env : Nat) {i : Int64} (hi : Int64.minValue < i) {e : Expr}
    (h : e.bare = (Datum.int i).expr.bare) (m : Machine) : e.eval ev env m = .ok (.int i) m := by
  unfold Datum.expr at h
  dsimp only at h
  split at h
  · next hneg =>
    obtain ⟨x, span, rfl, hx⟩ := Expr.eq_unary_of_bare h
    obtain ⟨span', rfl⟩ := Expr.eq_atom_of_bare hx
    change Eval.attempt (Arithmetic.exact _ (Exact.neg? _)) span m = _
    rw [Exact.neg?_ofNat_natAbs hneg hi]
    rfl
  · next hneg =>
    obtain ⟨span, rfl⟩ := Expr.eq_atom_of_bare h
    rw [Exact.ofNat_natAbs (by omega)]
    rfl

mutual

theorem Holds.yields (ev : Evaluator) (env : Nat) {v : Value} {d : Datum} (hv : s.Holds v d)
    {e : Expr} (h : e.bare = d.expr.bare) (m : Machine) :
    Yields m (e.eval ev env) fun t w => t.Holds w d := by
  cases hv with
  | null =>
    obtain ⟨span, rfl⟩ := Expr.eq_atom_of_bare h
    exact .pure .null
  | bool =>
    obtain ⟨span, rfl⟩ := Expr.eq_atom_of_bare h
    exact .pure .bool
  | int hi => exact .of_eq (eval_int ev env hi h m) (.int hi)
  | str =>
    obtain ⟨span, rfl⟩ := Expr.eq_atom_of_bare h
    exact .pure .str
  | list _ hall =>
    obtain ⟨es, span, rfl, hes⟩ := Expr.eq_list_of_bare h
    exact .bind (hall.yields ev env hes m) fun _ n _ hws => .newList hws
  | dict _ hkeys hentries =>
    obtain ⟨es, span, rfl, hes⟩ := Expr.eq_dict_of_bare h
    refine .bind (hentries.yields ev env hes span Table.empty hkeys m) ?_
    rintro _ n _ ⟨added, rfl, hadded, hentries⟩
    refine .newDict ?_ (by simpa [Table.toList, Table.empty] using hentries)
    have hsame : (Table.mk (Table.empty.entries ++ added.toArray)).keys = added.map (·.1) := by
      simp [Table.keys, Table.empty]
    rwa [hsame, hadded]

theorem HoldsAll.yields (ev : Evaluator) (env : Nat) {vs : List Value} {ds : List Datum}
    (hvs : s.HoldsAll vs ds) {es : List Expr} (h : bareAll es = bareAll (exprs ds)) (m : Machine) :
    Yields m (evalAll ev env es) fun t ws => t.HoldsAll ws ds := by
  cases hvs with
  | nil =>
    cases es with
    | nil => exact .pure .nil
    | cons => cases h
  | cons hv hvs =>
    cases es with
    | nil => cases h
    | cons e es =>
      obtain ⟨he, hes⟩ := List.cons.inj h
      refine .bind (hv.yields ev env he m) fun w n _ hw => ?_
      refine .bind (hvs.yields ev env hes n) fun ws o hgrows hws => ?_
      exact .pure (.cons (hw.mono hgrows) hws)

theorem HoldsEntries.yields (ev : Evaluator) (env : Nat) {entries : List (Key × Value)}
    {ds : List (Datum × Datum)} (hentries : s.HoldsEntries entries ds) {es : List (Expr × Expr)}
    (h : bareEntries es = bareEntries (entryExprs ds)) (span : Text.Span) (table : Table Key Value)
    (hkeys : (table.keys ++ entries.map (·.1)).Nodup) (m : Machine) :
    Yields m (evalEntries ev env span table es) fun t result => ∃ added,
      result = ⟨table.entries ++ added.toArray⟩ ∧ added.map (·.1) = entries.map (·.1) ∧
        t.HoldsEntries added ds := by
  cases hentries with
  | nil =>
    cases es with
    | nil => exact .pure ⟨[], by simp, rfl, .nil⟩
    | cons => cases h
  | @cons key k v d entries ds hk hv hentries =>
    cases es with
    | nil => cases h
    | cons e es =>
      obtain ⟨he, hes⟩ := List.cons.inj h
      obtain ⟨hek, hed⟩ := Prod.mk.inj he
      have hnew : key ∉ table.keys := fun hmem =>
        (List.nodup_append.mp hkeys).2.2 key hmem key List.mem_cons_self rfl
      refine .bind (hk.yields ev env hek m) fun kw n _ hkw => ?_
      obtain ⟨rfl, hkey⟩ := hk.key_of_toValue hkw
      refine .bind (hv.yields ev env hed n) fun w o hgrows hw => ?_
      have hattempt : Eval.attempt (Store.key key.toValue) span o = .ok key o := by
        unfold Eval.attempt Store.key
        rw [hkey]
        rfl
      refine .bind (.of_eq (Q := fun _ k => key = k) hattempt rfl) ?_
      rintro _ p hgrows' rfl
      rw [Table.put_of_not_mem w hnew]
      have hkeys' : ((Table.mk (table.entries.push (key, w))).keys ++ entries.map (·.1)).Nodup := by
        simpa [Table.keys] using hkeys
      obtain ⟨_, q, heval, hgrows'', added, rfl, hadded, hheld⟩ :=
        hentries.yields ev env hes span ⟨table.entries.push (key, w)⟩ hkeys' p
      refine ⟨_, q, heval, hgrows'', (key, w) :: added, by simp, by simp [hadded], ?_⟩
      have hlater := hgrows'.trans hgrows''
      exact .cons (hkw.mono (hgrows.trans hlater)) (hw.mono hlater) hheld

end

end Store

/-- The text of a value that is plain data, run as a program in any session, gives a value that is the
same data, with all elements and entries in the same order. A text in quotes is one string token, and it
denotes the text. -/
theorem run_repr (session : Session) :
    (∀ (s : Store) (v : Value) (d : Datum), s.Holds v d → ∃ w after,
      session.run (s.repr v) = (.ok w, after) ∧ after.machine.store.Holds w d) ∧
    ∀ t : String, Text.unescape (Text.quote t) = t ∧
      ∃ span, Token.pieces (Text.quote t) = [.ok ⟨.string, Text.quote t, span⟩] := by
  refine ⟨fun s v d h => ?_, fun t => ⟨Text.unescape_quote t, Token.pieces_quote t⟩⟩
  obtain ⟨e, hparse, he⟩ := h.parse_text
  have hcheck : Syntax.Program.check [.expr e] = .ok () := by
    rw [Syntax.Program.check, Syntax.checkAll, Syntax.Stmt.check, d.check_expr he]
    rfl
  obtain ⟨w, m, heval, -, hw⟩ :=
    h.yields (Evaluator.ofFuel session.settings Session.fuel) globals he session.machine
  have hrun : runStatements (Evaluator.ofFuel session.settings Session.fuel) .null [.expr e]
      session.machine = .ok w m := by
    rw [runStatements, bind_of_ok heval]
    rfl
  refine ⟨w, { session with machine := m }, ?_, hw⟩
  rw [h.repr_eq, Session.run, Session.runWith, hparse]
  dsimp only
  rw [hcheck]
  dsimp only
  rw [Session.runProgram, hrun]

theorem run_repr_nested :
    let s : Store := { Store.empty with
      lists := #[#[.int (-5), .str "it's", .dict 0], #[]]
      dicts := #[⟨#[(.null, .bool true), (.int 3, .list 1)]⟩] }
    let d : Datum := .list [.int (-5), .str "it's", .dict [(.null, .bool true), (.int 3, .list [])]]
    let session := Session.start ⟨100, false, fun _ => .error "no such file", #[]⟩
    s.Holds (.list 0) d ∧ s.repr (.list 0) = "[-5, 'it\\'s', \x7bnull: true, 3: []\x7d]" ∧
      ∃ w after, session.run (s.repr (.list 0)) = (.ok w, after) ∧
        after.machine.store.Holds w d := by
  intro s d session
  have hempty : s.Holds (.list 1) (.list []) := .list rfl .nil
  have hdict : s.Holds (.dict 0) (.dict [(.null, .bool true), (.int 3, .list [])]) :=
    .dict rfl (by decide) (.cons .null .bool (.cons (.int (by decide)) hempty .nil))
  have hlist : s.Holds (.list 0) d :=
    .list rfl (.cons (.int (by decide)) (.cons .str (.cons hdict .nil)))
  refine ⟨hlist, ?_, (run_repr session).1 s (.list 0) d hlist⟩
  rw [hlist.repr_eq]
  decide

end Rill
