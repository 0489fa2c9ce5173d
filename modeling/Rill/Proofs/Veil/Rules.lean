import Rill.Proofs.Veil

/-! Computations that take only steps under a veil, and the exceptions that they can end with. -/
namespace Rill

open Text (Span)

variable {V : Veil} {s t : Store} {α β : Type}

/-! ### Exceptions -/

namespace Store

theorem Persists.typeOf (h : s.Persists t) {id : Nat} (hid : id < s.instances.size) :
    t.typeOf id = s.typeOf id := by
  have hobject : s.instances[id]? = some s.instances[id] := Array.getElem?_eq_getElem hid
  obtain ⟨o, ho, htype⟩ := h.types hobject
  rw [Store.typeOf, Store.typeOf, hobject, ho]
  exact htype

theorem Persists.derivesFrom (h : s.Persists t) {id : Nat} (hid : id < s.classes.size)
    (ancestor : Nat) : t.derivesFrom id ancestor = s.derivesFrom id ancestor := by
  induction id using Nat.strongRecOn with
  | ind id ih =>
    have hclass : s.classes[id]? = some s.classes[id] := Array.getElem?_eq_getElem hid
    rw [Store.derivesFrom, Store.derivesFrom, hclass, h.classes hclass]
    split
    · rfl
    split
    · rfl
    split
    · next hlt => exact ih _ hlt (hlt.trans hid)
    · rfl

theorem Sound.typeOf_lt (hs : s.Sound V) {id : Nat} (hid : id < s.instances.size) :
    s.typeOf id < s.classes.size := by
  have hobject : s.instances[id]? = some s.instances[id] := Array.getElem?_eq_getElem hid
  rw [Store.typeOf, hobject]
  exact hs.types _ (Array.getElem_mem hid)

/-- A built-in class derives from the one that it is said to derive from. -/
theorem Sound.derivesFrom_superclass (hs : s.Sound V) {c parent : BuiltinClass}
    (h : c.superclass = some parent) : s.derivesFrom c.number parent.number = true := by
  have hsuper : (s.classes[c.number]? >>= Class.superclass) = some parent.number := by
    rw [hs.builtins c]
    exact congrArg (Option.map BuiltinClass.number) h
  have hlt : parent.number < c.number :=
    (hs.superclasses c.number _ (hs.builtins c)).2 _ (congrArg (Option.map BuiltinClass.number) h)
  have hself : s.derivesFrom parent.number parent.number = true := by
    rw [Store.derivesFrom, if_pos rfl]
  rw [Store.derivesFrom, if_neg (Nat.ne_of_gt hlt), hsuper]
  dsimp only
  rw [if_pos hlt, hself]

end Store

theorem Fault.superclass_type (fault : Fault) : fault.type.superclass = some .exception := by
  cases fault <;> rfl

/-- What an exception says of its instance is so: the class of the instance is an exception class
and has this name, and if the language raised it, then it is the class of the failure and the field
`message` holds the message. -/
structure Exception.Proper (s : Store) (e : Exception) : Prop where
  exists_payload : e.payload < s.instances.size
  derives : s.derivesFrom (s.typeOf e.payload) BuiltinClass.exception.number = true
  exists_class : ∃ c, s.classes[s.typeOf e.payload]? = some c ∧ e.className = c.name
  cause : ∀ fault, e.cause = some fault → s.typeOf e.payload = fault.type.number ∧
    s.field? e.payload "message" = some (.str e.message) ∧ e.message = fault.message

/-- If a run halts with an exception, it is a proper one, and the language raised it unless the
program may. -/
def Halt.Proper (V : Veil) (s : Store) (h : Halt) : Prop :=
  ∀ e, h = .exception e → e.Proper s ∧ (e.cause = none → V.raises)

theorem Halt.Proper.of_ne {h : Halt} (hne : ∀ e, h ≠ .exception e) : h.Proper V s :=
  fun e he => absurd he (hne e)

theorem Halt.defect_ne (e : Exception) : Halt.defect ≠ .exception e := by
  rintro ⟨⟩

theorem Halt.outOfFuel_ne (e : Exception) : Halt.outOfFuel ≠ .exception e := by
  rintro ⟨⟩

/-! ### Actions -/

namespace Veil

/-- With nothing said of the result. -/
abbrev Any : Store → α → Prop := fun _ _ => True

/-- In this store and all later ones, an action takes steps under the veil, and its result is as
said. -/
def Acts (V : Veil) (s : Store) (Q : Store → α → Prop) (x : Store.Action α) : Prop :=
  ∀ t, s.Persists t → t.Sound V → t.Moves V (x t).2 ∧ Q (x t).2 (x t).1

namespace Acts

variable {Q : Store → α → Prop} {R : Store → β → Prop}

theorem pure {a : α} (h : ∀ t, s.Persists t → Q t a) : V.Acts s Q (Pure.pure a) :=
  fun t hst _ => ⟨.refl, h t hst⟩

theorem value {v : Value} (h : v.Known V s) : V.Acts s (Value.Known V) (Pure.pure v) :=
  pure fun _ hst => h.mono hst

theorem done (a : α) : V.Acts s Any (Pure.pure a) := pure fun _ _ => trivial

theorem bind {x : Store.Action α} {f : α → Store.Action β} (hx : V.Acts s Q x)
    (hf : ∀ t a, s.Persists t → t.Sound V → Q t a → V.Acts t R (f a)) : V.Acts s R (x >>= f) := by
  intro t hst ht
  obtain ⟨hmoves, hq⟩ := hx t hst ht
  have hpersists : t.Persists (x t).2 := Store.Moves.persists hmoves
  have hsound : (x t).2.Sound V := Store.Moves.sound hmoves ht
  obtain ⟨hmoves', hr⟩ := hf _ _ (hst.trans hpersists) hsound hq _ (.refl _) hsound
  exact ⟨hmoves.trans hmoves', hr⟩

theorem get : V.Acts s (fun t u => u = t) get := fun _ _ _ => ⟨.refl, rfl⟩

/-- An action that is one step. -/
theorem ofMove {x : Store.Action α} (h : ∀ t, s.Persists t → t.Sound V → t.Move V (x t).2)
    (hq : ∀ t, s.Persists t → t.Sound V → Q (x t).2 (x t).1) : V.Acts s Q x :=
  fun t hst ht => ⟨.single (h t hst ht), hq t hst ht⟩

end Acts

theorem acts_newList {elements : Array Value} (h : ∀ v ∈ elements, v.Known V s) :
    V.Acts s (Value.Known V) (Store.newList elements) := by
  refine .ofMove (fun t hst _ => .list elements fun v hv => (h v hv).mono hst) fun t _ ht => ?_
  constructor
  · change t.lists.size < (t.lists.push elements).size
    simp
  · intro hid
    exact absurd (ht.lists _ hid) (Nat.lt_irrefl _)

theorem acts_newDict {entries : Table Key Value} (h : entries.All fun _ v => v.Known V s) :
    V.Acts s (Value.Known V) (Store.newDict entries) :=
  .ofMove (fun _ hst _ => .dict entries (h.mono fun _ _ hv => hv.mono hst)) fun _ _ _ => trivial

theorem acts_newItem {inner : Value} (h : inner.Known V s) :
    V.Acts s (Value.Known V) (Store.newItem inner) :=
  .ofMove (fun _ _ _ => .item) fun _ hst _ =>
    Value.Known.of_le (h.mono hst) le_rfl le_rfl le_rfl

theorem acts_newFunction {f : Function} (h : ∀ v, f.receiver = some v → v.Known V s) :
    V.Acts s (Value.Known V) (Store.newFunction f) :=
  .ofMove (fun _ hst _ => .function f fun v hv => (h v hv).mono hst) fun _ _ _ => trivial

theorem acts_newClass {c : Class} {parent : Nat} (h : c.attributes.All fun _ v => v.Known V s)
    (hc : c.superclass = some parent) (hparent : parent < s.classes.size) :
    V.Acts s (Value.Known V) (Store.newClass c) := by
  refine .ofMove (fun t hst _ => ?_) fun t _ _ => ?_
  · exact .type c parent (h.mono fun _ _ hv => hv.mono hst) hc (hparent.trans_le hst.classes_size)
  · change t.classes.size < (t.classes.push c).size
    simp

theorem acts_newModule {k : Module} (h : k.attributes.All fun _ v => v.Known V s) :
    V.Acts s (Value.Known V) (Store.newModule k) :=
  .ofMove (fun _ hst _ => .module k (h.mono fun _ _ hv => hv.mono hst)) fun _ _ _ => trivial

theorem acts_newInstance {type : Nat} {fields : Table String Value}
    (h : fields.All fun _ v => v.Known V s) (htype : type < s.classes.size) :
    V.Acts s (fun t id => Value.Known V t (.object id) ∧ t.typeOf id = type)
      (Store.newInstance type fields) := by
  refine .ofMove (fun t hst _ => ?_) fun t _ ht => ⟨⟨?_, ?_⟩, ?_⟩
  · exact .object ⟨type, fields⟩ (h.mono fun _ _ hv => hv.mono hst)
      (htype.trans_le hst.classes_size)
  · change t.instances.size < (t.instances.push ⟨type, fields⟩).size
    simp
  · intro hid
    exact absurd (ht.objects _ hid) (Nat.lt_irrefl _)
  · change ((t.instances.push ⟨type, fields⟩)[t.instances.size]?.map Instance.type).getD 0 = type
    simp

theorem acts_newFrame (f : Frame) : V.Acts s Any (Store.newFrame f) :=
  .ofMove (fun _ _ _ => .frame f) fun _ _ _ => trivial

theorem acts_setField {id : Nat} {name : String} {v : Value} (hopen : V.Opens id name)
    (hv : v.Known V s) : V.Acts s Any (Store.setField id name v) :=
  .ofMove (fun _ hst _ => .field id name v (hv.mono hst) hopen) fun _ _ _ => trivial

theorem acts_modifyList {id : Nat} {f : Array Value → Array Value} (hid : id ∉ V.lists)
    (h : ∀ t, s.Persists t → ∀ elements, (∀ v ∈ elements, v.Known V t) →
      ∀ v ∈ f elements, v.Known V t) : V.Acts s Any (Store.modifyList id f) :=
  .ofMove (fun t hst _ => .editList id f hid (h t hst)) fun _ _ _ => trivial

theorem acts_modifyDict {id : Nat} {f : Table Key Value → Table Key Value}
    (h : ∀ t, s.Persists t → ∀ entries : Table Key Value, (entries.All fun _ v => v.Known V t) →
      (f entries).All fun _ v => v.Known V t) : V.Acts s Any (Store.modifyDict id f) :=
  .ofMove (fun t hst _ => .editDict id f (h t hst)) fun _ _ _ => trivial

theorem acts_writeCell {v : Value} (hv : v.Known V s) (cell : Nat) :
    V.Acts s Any (Store.writeCell cell v) :=
  .ofMove (fun _ hst _ => .write cell v (hv.mono hst)) fun _ _ _ => trivial

theorem acts_bind {v : Value} (hv : v.Known V s) (id : Nat) (name : String) :
    V.Acts s Any (Store.bind id name v) := by
  refine .ofMove (fun t hst _ => ?_) fun _ _ _ => trivial
  cases hn : (t.frame id).names.get? name with
  | some cell =>
    rw [Store.bind_of_some hn]
    exact .write cell v (hv.mono hst)
  | none =>
    rw [Store.bind_of_none hn]
    exact .newVariable id name v (hv.mono hst)

theorem acts_assign {v : Value} (hv : v.Known V s) (id : Nat) (name : String) :
    V.Acts s Any (Store.assign id name v) := by
  refine .bind .get fun t u hst _ _ => ?_
  split
  · exact .bind (acts_writeCell (hv.mono hst) _) fun _ _ _ _ _ => .done _
  · exact .done _

theorem acts_capture (id : Nat) : V.Acts s Any (Store.capture id) := by
  refine .bind .get fun _ _ _ _ _ => ?_
  split
  · exact .done _
  · exact .bind .get fun _ _ _ _ _ => acts_newFrame _

/-! ### Attempts -/

/-- From a store, an attempt takes steps under the veil, and its result is as said if it has one. -/
@[irreducible] def TriesAt (V : Veil) (t : Store) (Q : Store → α → Prop) (x : Store.Attempt α) :
    Prop :=
  match x t with
  | .ok a u => t.Moves V u ∧ Q u a
  | .error _ u => t.Moves V u

/-- In this store and all later ones. -/
def Tries (V : Veil) (s : Store) (Q : Store → α → Prop) (x : Store.Attempt α) : Prop :=
  ∀ t, s.Persists t → t.Sound V → V.TriesAt t Q x

namespace TriesAt

variable {Q : Store → α → Prop} {x : Store.Attempt α} {u : Store}

theorem ofOk {a : α} (h : x t = .ok a u) (hmoves : t.Moves V u) (hq : Q u a) : V.TriesAt t Q x := by
  unfold TriesAt
  rw [h]
  exact ⟨hmoves, hq⟩

theorem ofError {trouble : Store.Trouble} (h : x t = .error trouble u) (hmoves : t.Moves V u) :
    V.TriesAt t Q x := by
  unfold TriesAt
  rw [h]
  exact hmoves

theorem of_ok (h : V.TriesAt t Q x) {a : α} (hx : x t = .ok a u) : t.Moves V u ∧ Q u a := by
  unfold TriesAt at h
  rwa [hx] at h

theorem of_error (h : V.TriesAt t Q x) {trouble : Store.Trouble} (hx : x t = .error trouble u) :
    t.Moves V u := by
  unfold TriesAt at h
  rwa [hx] at h

end TriesAt

namespace Tries

variable {Q : Store → α → Prop} {R : Store → β → Prop}

theorem action {x : Store.Action α} (h : V.Acts s Q x) : V.Tries s Q (liftM x) :=
  fun t hst ht => .ofOk rfl (h t hst ht).1 (h t hst ht).2

theorem pure {a : α} (h : ∀ t, s.Persists t → Q t a) : V.Tries s Q (Pure.pure a) :=
  fun t hst _ => .ofOk rfl .refl (h t hst)

theorem value {v : Value} (h : v.Known V s) : V.Tries s (Value.Known V) (Pure.pure v) :=
  pure fun _ hst => h.mono hst

theorem done (a : α) : V.Tries s Any (Pure.pure a) := pure fun _ _ => trivial

theorem throw (trouble : Store.Trouble) : V.Tries s Q (MonadExcept.throw trouble) :=
  fun _ _ _ => .ofError rfl .refl

theorem fail (fault : Fault) : V.Tries s Q (Store.fail fault) := throw _

theorem get : V.Tries s (fun t u => u = t) get := fun _ _ _ => .ofOk rfl .refl rfl

theorem ofExcept (e : Except Fault α) : V.Tries s Any (liftM e) := by
  cases e with
  | ok a => exact done a
  | error fault => exact throw _

theorem bind {x : Store.Attempt α} {f : α → Store.Attempt β} (hx : V.Tries s Q x)
    (hf : ∀ t a, s.Persists t → t.Sound V → Q t a → V.Tries t R (f a)) :
    V.Tries s R (x >>= f) := by
  intro t hst ht
  cases h : x t with
  | error trouble u => exact .ofError (bind_of_error h) ((hx t hst ht).of_error h)
  | ok a u =>
    obtain ⟨hmoves, hq⟩ := (hx t hst ht).of_ok h
    have hpersists : t.Persists u := Store.Moves.persists hmoves
    have hsound : u.Sound V := Store.Moves.sound hmoves ht
    have hnext := hf u a (hst.trans hpersists) hsound hq u (.refl u) hsound
    cases h' : f a u with
    | ok b w =>
      obtain ⟨hmoves', hr⟩ := hnext.of_ok h'
      exact .ofOk ((bind_of_ok h).trans h') (hmoves.trans hmoves') hr
    | error trouble w =>
      exact .ofError ((bind_of_ok h).trans h') (hmoves.trans (hnext.of_error h'))

theorem demand (condition : Prop) [Decidable condition] :
    V.Tries s Any (Store.demand condition) := by
  unfold Store.demand
  split
  · exact done ()
  · exact throw _

end Tries
end Veil

/-! ### Computations -/

open Eval

/-- What a computation under the veil makes of a machine: it takes steps, and leaves the calls that
it enters. -/
structure Machine.Follows (V : Veil) (m n : Machine) : Prop where
  store : m.store.Moves V n.store
  calls : n.calls = m.calls

namespace Machine.Follows

variable {m n o : Machine}

theorem refl (m : Machine) : m.Follows V m := ⟨.refl, rfl⟩

theorem trans (hmn : m.Follows V n) (hno : n.Follows V o) : m.Follows V o :=
  ⟨hmn.store.trans hno.store, hno.calls.trans hmn.calls⟩

theorem ofStore {u : Store} (h : m.store.Moves V u) : m.Follows V { m with store := u } := ⟨h, rfl⟩

theorem persists (h : m.Follows V n) : m.store.Persists n.store := Store.Moves.persists h.store

theorem sound (h : m.Follows V n) (hm : m.store.Sound V) : n.store.Sound V :=
  Store.Moves.sound h.store hm

end Machine.Follows

namespace Veil

/-- From a machine, a computation takes steps under the veil. Its result is as said, or it halts,
and if it does so with an exception then that is a proper one. -/
@[irreducible] def RunsAt (V : Veil) (m : Machine) (Q : Store → α → Prop) (x : Eval α) : Prop :=
  match x m with
  | .ok a n => m.Follows V n ∧ Q n.store a
  | .error h n => m.Follows V n ∧ h.Proper V n.store

/-- With this store and all later ones. -/
def Runs (V : Veil) (s : Store) (Q : Store → α → Prop) (x : Eval α) : Prop :=
  ∀ m : Machine, s.Persists m.store → m.store.Sound V → V.RunsAt m Q x

namespace RunsAt

variable {Q : Store → α → Prop} {R : Store → β → Prop} {x : Eval α} {m n : Machine}

theorem ofOk {a : α} (h : x m = .ok a n) (hfollows : m.Follows V n) (hq : Q n.store a) :
    V.RunsAt m Q x := by
  unfold RunsAt
  rw [h]
  exact ⟨hfollows, hq⟩

theorem ofError {halt : Halt} (h : x m = .error halt n) (hfollows : m.Follows V n)
    (hproper : halt.Proper V n.store) : V.RunsAt m Q x := by
  unfold RunsAt
  rw [h]
  exact ⟨hfollows, hproper⟩

theorem of_ok (h : V.RunsAt m Q x) {a : α} (hx : x m = .ok a n) :
    m.Follows V n ∧ Q n.store a := by
  unfold RunsAt at h
  rwa [hx] at h

theorem of_error (h : V.RunsAt m Q x) {halt : Halt} (hx : x m = .error halt n) :
    m.Follows V n ∧ halt.Proper V n.store := by
  unfold RunsAt at h
  rwa [hx] at h

theorem follows (h : V.RunsAt m Q x) : m.Follows V (x.after m) := by
  unfold Eval.after
  cases hx : x m with
  | ok a n => exact (h.of_ok hx).1
  | error halt n => exact (h.of_error hx).1

/-- What runs from a later machine runs from the earlier one. -/
theorem after {y : Eval α} (hfollows : m.Follows V n) (h : V.RunsAt n Q x) (hy : y m = x n) :
    V.RunsAt m Q y := by
  cases hx : x n with
  | ok a o =>
    obtain ⟨hfollows', hq⟩ := h.of_ok hx
    exact ofOk (hy.trans hx) (hfollows.trans hfollows') hq
  | error halt o =>
    obtain ⟨hfollows', hproper⟩ := h.of_error hx
    exact ofError (hy.trans hx) (hfollows.trans hfollows') hproper

theorem bind {f : α → Eval β} (hx : V.RunsAt m Q x) (hm : m.store.Sound V)
    (hf : ∀ t a, m.store.Persists t → t.Sound V → Q t a → V.Runs t R (f a)) :
    V.RunsAt m R (x >>= f) := by
  cases h : x m with
  | ok a n =>
    obtain ⟨hfollows, hq⟩ := hx.of_ok h
    have hsound : n.store.Sound V := hfollows.sound hm
    have hnext := hf n.store a hfollows.persists hsound hq
    exact (hnext n (.refl _) hsound).after hfollows (bind_of_ok h)
  | error halt n =>
    obtain ⟨hfollows, hproper⟩ := hx.of_error h
    exact ofError (bind_of_error h) hfollows hproper

theorem inCall {frame : CallFrame} (h : V.RunsAt { m with calls := m.calls.push frame } Q x) :
    V.RunsAt m Q (Eval.inCall frame x) := by
  have hpop {n : Machine} (hfollows : Machine.Follows V { m with calls := m.calls.push frame } n) :
      m.Follows V { n with calls := n.calls.pop } := by
    refine ⟨hfollows.store, ?_⟩
    rw [hfollows.calls, Array.pop_push]
  cases hx : x { m with calls := m.calls.push frame } with
  | ok a n =>
    obtain ⟨hfollows, hq⟩ := h.of_ok hx
    exact ofOk (inCall_of_ok hx) (hpop hfollows) hq
  | error halt n =>
    obtain ⟨hfollows, hproper⟩ := h.of_error hx
    exact ofError (inCall_of_error hx) (hpop hfollows) hproper

theorem inInclude {path : String} (h : V.RunsAt { m with includes := path :: m.includes } Q x) :
    V.RunsAt m Q (Eval.inInclude path x) := by
  cases hx : x { m with includes := path :: m.includes } with
  | ok a n =>
    obtain ⟨hfollows, hq⟩ := h.of_ok hx
    exact ofOk (inInclude_of_ok hx) ⟨hfollows.store, hfollows.calls⟩ hq
  | error halt n =>
    obtain ⟨hfollows, hproper⟩ := h.of_error hx
    exact ofError (inInclude_of_error hx) ⟨hfollows.store, hfollows.calls⟩ hproper

end RunsAt

namespace Runs

variable {Q : Store → α → Prop} {R : Store → β → Prop}

theorem now {m : Machine} {x : Eval α} (h : V.Runs m.store Q x) (hm : m.store.Sound V) :
    V.RunsAt m Q x :=
  h m (.refl _) hm

theorem action {x : Store.Action α} (h : V.Acts s Q x) : V.Runs s Q (liftM x) := by
  intro m hsm hm
  obtain ⟨hmoves, hq⟩ := h m.store hsm hm
  exact .ofOk rfl (.ofStore hmoves) hq

theorem pure {a : α} (h : ∀ t, s.Persists t → Q t a) : V.Runs s Q (Pure.pure a) :=
  fun m hsm _ => .ofOk rfl (.refl m) (h m.store hsm)

theorem value {v : Value} (h : v.Known V s) : V.Runs s (Value.Known V) (Pure.pure v) :=
  pure fun _ hst => h.mono hst

theorem done (a : α) : V.Runs s Any (Pure.pure a) := pure fun _ _ => trivial

theorem bind {x : Eval α} {f : α → Eval β} (hx : V.Runs s Q x)
    (hf : ∀ t a, s.Persists t → t.Sound V → Q t a → V.Runs t R (f a)) : V.Runs s R (x >>= f) :=
  fun m hsm hm => (hx m hsm hm).bind hm fun t a hmt ht hq => hf t a (hsm.trans hmt) ht hq

theorem mono {x : Eval α} (h : V.Runs s Q x) (hst : s.Persists t) : V.Runs t Q x :=
  fun m htm hm => h m (hst.trans htm) hm

theorem weaken {Q' : Store → α → Prop} {x : Eval α} (h : V.Runs s Q x)
    (hq : ∀ t a, s.Persists t → Q t a → Q' t a) : V.Runs s Q' x := by
  intro m hsm hm
  cases hx : x m with
  | ok a n =>
    obtain ⟨hfollows, ha⟩ := (h m hsm hm).of_ok hx
    exact .ofOk hx hfollows (hq n.store a (hsm.trans hfollows.persists) ha)
  | error halt n =>
    obtain ⟨hfollows, hproper⟩ := (h m hsm hm).of_error hx
    exact .ofError hx hfollows hproper

theorem any {x : Eval α} (h : V.Runs s Q x) : V.Runs s Any x := h.weaken fun _ _ _ _ => trivial

theorem mapM {f : α → Eval β} {as : List α}
    (h : ∀ a ∈ as, ∀ t, s.Persists t → t.Sound V → V.Runs t Any (f a)) :
    V.Runs s Any (as.mapM f) := by
  induction as generalizing s with
  | nil => exact done []
  | cons a as ih =>
    rw [List.mapM_cons]
    obtain ⟨ha, has⟩ := List.forall_mem_cons.mp h
    intro m hsm hm
    have hrest (t : Store) (hmt : m.store.Persists t) : V.Runs t Any (as.mapM f) :=
      ih fun b hb u htu hu => has b hb u (hsm.trans (hmt.trans htu)) hu
    have hfirst := ha m.store hsm hm m (.refl _) hm
    exact hfirst.bind hm fun t _ hmt _ _ => bind (hrest t hmt) fun _ _ _ _ _ => done _

theorem get : V.Runs s (fun t m => m.store = t) get := fun m _ _ => .ofOk rfl (.refl m) rfl

theorem store : V.Runs s (fun t u => u = t) store := fun m _ _ => .ofOk rfl (.refl m) rfl

theorem print (line : String) : V.Runs s Any (print line) :=
  fun _ _ _ => .ofOk rfl ⟨.refl, rfl⟩ trivial

/-- A run may halt in other ways than by an exception. -/
theorem throw {halt : Halt} (h : ∀ e, halt ≠ .exception e) : V.Runs s Q (throw halt) :=
  fun m _ _ => .ofError rfl (.refl m) (.of_ne h)

theorem outOfFuel : V.Runs s Q outOfFuel := throw Halt.outOfFuel_ne

theorem defect : V.Runs s Q defect := throw Halt.defect_ne

/-- An exception that the language raises is proper. -/
theorem raise (fault : Fault) (span : Span) : V.Runs s Q (raise fault span) := by
  intro m hsm hm
  have hfields : (Table.ofList [("message", Value.str fault.message)]).All
      fun _ v => v.Known V m.store := by
    apply Table.All.ofList
    simp [Value.Known]
  have hmove : m.store.Move V { m.store with
      instances := m.store.instances.push
        ⟨fault.type.number, Table.ofList [("message", .str fault.message)]⟩ } :=
    .object _ hfields (hm.builtin_lt fault.type)
  have hsound := hmove.sound hm
  refine .ofError rfl (.ofStore (.single hmove)) ?_
  rintro _ ⟨⟩
  -- the instance is the last one
  have htype : Store.typeOf { m.store with
      instances := m.store.instances.push
        ⟨fault.type.number, Table.ofList [("message", .str fault.message)]⟩ }
      m.store.instances.size = fault.type.number := by
    simp [Store.typeOf]
  refine ⟨⟨?_, ?_, ?_, ?_⟩, nofun⟩
  · change m.store.instances.size < (m.store.instances.push _).size
    simp
  · change Store.derivesFrom _ (Store.typeOf _ m.store.instances.size) _ = true
    rw [htype]
    exact hsound.derivesFrom_superclass fault.superclass_type
  · change ∃ c, m.store.classes[Store.typeOf _ m.store.instances.size]? = some c ∧ _
    rw [htype]
    exact ⟨_, hm.builtins fault.type, rfl⟩
  · rintro _ ⟨⟩
    refine ⟨htype, ?_, rfl⟩
    change (m.store.instances.push _)[m.store.instances.size]? >>= _ = _
    rw [Array.getElem?_push_size]
    exact Table.get?_put_self Table.empty "message" (Value.str fault.message)

theorem invalid (message : String) (span : Span) : V.Runs s Q (invalid message span) := raise _ span

theorem attempt {x : Store.Attempt α} (h : V.Tries s Q x) (span : Span) :
    V.Runs s Q (attempt x span) := by
  intro m hsm hm
  cases hx : x m.store with
  | ok a u =>
    obtain ⟨hmoves, hq⟩ := (h m.store hsm hm).of_ok hx
    exact .ofOk (attempt_of_ok hx span) (.ofStore hmoves) hq
  | error trouble u =>
    have hfollows : m.Follows V { m with store := u } := .ofStore ((h m.store hsm hm).of_error hx)
    cases trouble with
    | fault fault =>
      have hraise : V.Runs u Q (Eval.raise fault span) := raise fault span
      have hnow : V.RunsAt { m with store := u } Q _ := hraise.now (hfollows.sound hm)
      exact hnow.after hfollows (attempt_of_fault hx span)
    | defect =>
      have hrun : Eval.attempt x span m = .error .defect { m with store := u } := by
        unfold Eval.attempt
        simp only [hx]
        rfl
      exact .ofError hrun hfollows (.of_ne Halt.defect_ne)

/-- An instance of an exception class is raised, with whatever text it has. -/
theorem raiseWith {text : Eval String} {id : Nat} (htext : V.Runs s Any text)
    (hid : id < s.instances.size) (hs : s.Sound V)
    (hderives : s.derivesFrom (s.typeOf id) BuiltinClass.exception.number = true) (hV : V.raises)
    (span : Span) : V.Runs s Q (raiseWith id span text) := by
  intro m hsm hm
  have hproper {n : Machine} (hfollows : m.Follows V n) (message : String) :
      Halt.Proper V n.store (.exception (raised id span message n)) := by
    have hsn : s.Persists n.store := hsm.trans hfollows.persists
    rintro _ ⟨⟩
    have hlt : id < n.store.instances.size := hid.trans_le hsn.instances_size
    refine ⟨⟨hlt, ?_, ?_, by rintro _ ⟨⟩⟩, fun _ => hV⟩
    · change n.store.derivesFrom (n.store.typeOf id) _ = true
      rw [hsn.typeOf hid, hsn.derivesFrom (hs.typeOf_lt hid), hderives]
    · have hclass : n.store.typeOf id < n.store.classes.size := by
        rw [hsn.typeOf hid]
        exact (hs.typeOf_lt hid).trans_le hsn.classes_size
      have hget := Array.getElem?_eq_getElem hclass
      refine ⟨_, hget, ?_⟩
      change n.store.className (n.store.typeOf id) = _
      rw [Store.className, hget]
      rfl
  cases hrun : text m with
  | ok message n =>
    have hfollows := ((htext m hsm hm).of_ok hrun).1
    exact .ofError (raiseWith_of_ok hrun id span) hfollows (hproper hfollows message)
  | error halt n =>
    obtain ⟨hfollows, hhalt⟩ := (htext m hsm hm).of_error hrun
    cases halt with
    | exception e =>
      exact .ofError (raiseWith_of_exception hrun id span) hfollows (hproper hfollows _)
    | _ => exact .ofError (raiseWith_of_halt hrun (by rintro _ ⟨⟩) id span) hfollows hhalt

theorem inCall {x : Eval α} (h : V.Runs s Q x) (frame : CallFrame) :
    V.Runs s Q (inCall frame x) :=
  fun m hsm hm => (h { m with calls := m.calls.push frame } hsm hm).inCall

theorem inInclude {x : Eval α} (h : V.Runs s Q x) (path : String) :
    V.Runs s Q (inInclude path x) :=
  fun m hsm hm => (h { m with includes := path :: m.includes } hsm hm).inInclude

end Runs
end Veil
end Rill
