import Rill.Eval.Evaluator
import Rill.Proofs.Frames
import Rill.Proofs.Outcome

/-! Two runs of one program that are the same up to the point where the first ends early.

What is to hold at such a point is a parameter. The rules here are proved once for all parameters,
and so are the modules below this one, which follow them through everything that a program can do. -/
namespace Rill

open Text (Span)

namespace Store

/-- What an action does are steps that give new variables to no frames but those of `homes`, and its
result is as said. -/
def Keeps {α : Type} (homes : Set Nat) (action : Action α) (Q : α → Prop) : Prop :=
  ∀ s : Store, s.Checked → s.Within homes (action s).2 ∧ Q (action s).1

namespace Keeps

variable {α β : Type} {homes : Set Nat} {Q : α → Prop} {R : β → Prop}

theorem pure {a : α} (h : Q a) : Keeps homes (Pure.pure a) Q := fun s _ => ⟨.refl s, h⟩

theorem bind {x : Action α} {f : α → Action β} (hx : Keeps homes x Q)
    (hf : ∀ a, Q a → Keeps homes (f a) R) : Keeps homes (x >>= f) R := by
  intro s hs
  obtain ⟨hwithin, hq⟩ := hx s hs
  obtain ⟨hwithin', hr⟩ := hf _ hq (x s).2 (hwithin.checked hs)
  exact ⟨hwithin.trans hwithin', hr⟩

theorem get : Keeps homes get Store.Checked := fun s hs => ⟨.refl s, hs⟩

/-- An action that is one step and leaves the frames and the dicts alone. -/
theorem ofStep {x : Action α} (h : ∀ s : Store, s.Step (x s).2)
    (hframes : ∀ s : Store, (x s).2.frames = s.frames)
    (hdicts : ∀ s : Store, (x s).2.dicts = s.dicts) : Keeps homes x fun _ => True :=
  fun s _ => ⟨.step (h s) (hframes s) (hdicts s), trivial⟩

theorem mapM {x : α → Action β} (h : ∀ a, Keeps homes (x a) fun _ => True) (as : List α) :
    Keeps homes (as.mapM x) fun _ => True := by
  induction as with
  | nil => exact pure trivial
  | cons a as ih =>
    rw [List.mapM_cons]
    exact bind (h a) fun _ _ => bind ih fun _ _ => pure trivial

end Keeps

variable {homes : Set Nat}

theorem keeps_newList (elements : Array Value) : Keeps homes (newList elements) fun _ => True :=
  .ofStep (fun _ => .list elements) (fun _ => rfl) fun _ => rfl

theorem keeps_newDict {entries : Table Key Value} (h : entries.Proper) :
    Keeps homes (newDict entries) fun _ => True :=
  fun s _ => ⟨.dict s h, trivial⟩

theorem keeps_newItem (inner : Value) : Keeps homes (newItem inner) fun _ => True :=
  .ofStep (fun _ => .item) (fun _ => rfl) fun _ => rfl

theorem keeps_newFunction {f : Function} (h : f.decl.check = .ok ()) :
    Keeps homes (newFunction f) fun _ => True :=
  .ofStep (fun _ => .function f h) (fun _ => rfl) fun _ => rfl

theorem keeps_newClass (c : Class) : Keeps homes (newClass c) fun _ => True :=
  .ofStep (fun _ => .type c) (fun _ => rfl) fun _ => rfl

theorem keeps_newModule (m : Module) : Keeps homes (newModule m) fun _ => True :=
  .ofStep (fun _ => .module m) (fun _ => rfl) fun _ => rfl

theorem keeps_newInstance (type : Nat) (fields : Table String Value) :
    Keeps homes (newInstance type fields) fun _ => True :=
  .ofStep (fun _ => .object ⟨type, fields⟩) (fun _ => rfl) fun _ => rfl

theorem keeps_setField (id : Nat) (name : String) (v : Value) :
    Keeps homes (setField id name v) fun _ => True :=
  .ofStep (fun _ => .field id name v) (fun _ => rfl) fun _ => rfl

theorem keeps_modifyList (id : Nat) (f : Array Value → Array Value) :
    Keeps homes (modifyList id f) fun _ => True :=
  .ofStep (fun _ => .editList id f) (fun _ => rfl) fun _ => rfl

theorem keeps_modifyDict (id : Nat) {f : Table Key Value → Table Key Value}
    (h : ∀ t, t.Proper → (f t).Proper) : Keeps homes (modifyDict id f) fun _ => True :=
  fun s _ => ⟨.editDict s id h, trivial⟩

theorem keeps_writeCell (cell : Nat) (v : Value) : Keeps homes (writeCell cell v) fun _ => True :=
  .ofStep (fun _ => .write cell v) (fun _ => rfl) fun _ => rfl

theorem keeps_newFrame (f : Frame) : Keeps homes (newFrame f) fun _ => True :=
  fun s _ => ⟨⟨.single (.frame f), .push s f, .ofDicts rfl⟩, trivial⟩

theorem leads_bind (s : Store) (id : Nat) (name : String) (v : Value) :
    s.Leads (bind id name v s).2 := by
  cases hn : (s.frame id).names.get? name with
  | some cell =>
    rw [bind_of_some hn]
    exact .single (.write cell v)
  | none =>
    rw [bind_of_none hn]
    exact .single (.newVariable id name v)

theorem dicts_bind (s : Store) (id : Nat) (name : String) (v : Value) :
    (bind id name v s).2.dicts = s.dicts := by
  cases hn : (s.frame id).names.get? name with
  | some cell => rw [bind_of_some hn]
  | none => rw [bind_of_none hn]

theorem keeps_bind {id : Nat} (hid : id ∈ homes) (name : String) (v : Value) :
    Keeps homes (bind id name v) fun _ => True :=
  fun s _ => ⟨⟨leads_bind s id name v, .bind hid s name v, .ofDicts (dicts_bind s id name v)⟩,
    trivial⟩

theorem keeps_assign (id : Nat) (name : String) (v : Value) :
    Keeps homes (assign id name v) fun _ => True := by
  refine .bind .get fun s _ => ?_
  split
  · exact .bind (keeps_writeCell _ v) fun _ _ => .pure trivial
  · exact .pure trivial

theorem keeps_capture (id : Nat) : Keeps homes (capture id) fun _ => True := by
  refine .bind .get fun s _ => ?_
  split
  · exact .pure trivial
  · exact .bind .get fun _ _ => keeps_newFrame _

/-- What an attempt does are steps that leave the frames alone, and it accesses nothing out of
bounds. -/
def Safe {α : Type} (attempt : Attempt α) : Prop :=
  ∀ s : Store, s.Checked →
    match attempt s with
    | .ok _ t => s.Within ∅ t
    | .error trouble t => s.Within ∅ t ∧ trouble ≠ .defect

namespace Safe

variable {α β : Type}

theorem pure (a : α) : Safe (Pure.pure a) := fun s _ => .refl s

theorem fail (fault : Fault) : Safe (α := α) (fail fault) := fun s _ => ⟨.refl s, nofun⟩

theorem get : Safe get := fun s _ => .refl s

/-- What comes next has to be safe for those results that there can be. -/
theorem bind_of {x : Attempt α} {f : α → Attempt β} (hx : Safe x)
    (hf : ∀ s a t, x s = .ok a t → Safe (f a)) : Safe (x >>= f) := by
  intro s hs
  have hxs := hx s hs
  cases h : x s with
  | error e t =>
    rw [bind_of_error h]
    simpa only [h] using hxs
  | ok a t =>
    rw [bind_of_ok h]
    simp only [h] at hxs
    have hft := hf s a t h t (hxs.checked hs)
    cases h' : f a t with
    | ok b u => simp only [h'] at hft; exact hxs.trans hft
    | error e u => simp only [h'] at hft; exact ⟨hxs.trans hft.1, hft.2⟩

theorem bind {x : Attempt α} {f : α → Attempt β} (hx : Safe x) (hf : ∀ a, Safe (f a)) :
    Safe (x >>= f) :=
  bind_of hx fun _ a _ _ => hf a

theorem action {x : Action α} {Q : α → Prop} (h : Keeps ∅ x Q) : Safe (liftM x) :=
  fun s hs => (h s hs).1

end Safe
end Store

namespace Eval

variable {α : Type} {x : Eval α} {m n : Machine}

theorem inCall_of_ok {frame : CallFrame} {a : α}
    (h : x { m with calls := m.calls.push frame } = .ok a n) :
    inCall frame x m = .ok a { n with calls := n.calls.pop } := by
  unfold inCall
  simp only [h]

theorem inCall_of_error {frame : CallFrame} {halt : Halt}
    (h : x { m with calls := m.calls.push frame } = .error halt n) :
    inCall frame x m = .error halt { n with calls := n.calls.pop } := by
  unfold inCall
  simp only [h]

theorem inCall_congr {frame : CallFrame} {y : Eval α}
    (h : x { m with calls := m.calls.push frame } = y { m with calls := m.calls.push frame }) :
    inCall frame x m = inCall frame y m := by
  unfold inCall
  simp only [h]

theorem inInclude_of_ok {path : String} {a : α}
    (h : x { m with includes := path :: m.includes } = .ok a n) :
    inInclude path x m = .ok a { n with includes := n.includes.tail } := by
  unfold inInclude
  simp only [h]

theorem inInclude_of_error {path : String} {halt : Halt}
    (h : x { m with includes := path :: m.includes } = .error halt n) :
    inInclude path x m = .error halt { n with includes := n.includes.tail } := by
  unfold inInclude
  simp only [h]

/-- To raise an exception is to make its instance and to note the calls in progress. -/
theorem exists_raise (fault : Fault) (span : Span) (m : Machine) :
    ∃ s e, m.store.Within ∅ s ∧ e.traceback = m.calls ∧ e.cause = some fault ∧
      raise (α := α) fault span m = .error (.exception e) { m with store := s } :=
  ⟨_, _, .step (.object _) rfl rfl, rfl, rfl, rfl⟩

theorem attempt_of_ok {action : Store.Attempt α} {a : α} {s : Store}
    (h : action m.store = .ok a s) (span : Span) :
    attempt action span m = .ok a { m with store := s } := by
  unfold attempt
  simp only [h]

theorem attempt_of_fault {action : Store.Attempt α} {fault : Fault} {s : Store}
    (h : action m.store = .error (.fault fault) s) (span : Span) :
    attempt action span m = raise fault span { m with store := s } := by
  unfold attempt
  simp only [h]

/-- The message for an instance whose text is given. An exception on the way to it is dropped. -/
def messageWith (id : Nat) (text : Eval String) : Eval String := fun m =>
  match text m with
  | .error (.exception _) n => .ok (n.store.instanceText id) n
  | result => result

/-- The exception for an instance with a message. -/
def raised (id : Nat) (span : Span) (message : String) (m : Machine) : Exception :=
  { payload := id, className := m.store.instanceClassName id, message, span
    traceback := m.calls, cause := none }

/-- Raises an instance whose text is given. -/
def raiseWith {α : Type} (id : Nat) (span : Span) (text : Eval String) : Eval α := do
  let message ← messageWith id text
  throw (.exception (raised id span message (← get)))

theorem raiseWith_of_ok {text : Eval String} {message : String} (h : text m = .ok message n)
    (id : Nat) (span : Span) :
    raiseWith (α := α) id span text m = .error (.exception (raised id span message n)) n := by
  have hmessage : messageWith id text m = .ok message n := by
    unfold messageWith
    simp only [h]
  exact bind_of_ok hmessage

theorem raiseWith_of_exception {text : Eval String} {e : Exception}
    (h : text m = .error (.exception e) n) (id : Nat) (span : Span) :
    raiseWith (α := α) id span text m =
      .error (.exception (raised id span (n.store.instanceText id) n)) n := by
  have hmessage : messageWith id text m = .ok (n.store.instanceText id) n := by
    unfold messageWith
    simp only [h]
  exact bind_of_ok hmessage

theorem raiseWith_of_halt {text : Eval String} {halt : Halt} (h : text m = .error halt n)
    (hne : ∀ e, halt ≠ .exception e) (id : Nat) (span : Span) :
    raiseWith (α := α) id span text m = .error halt n := by
  have hmessage : messageWith id text m = .error halt n := by
    unfold messageWith
    cases halt with
    | exception e => exact absurd rfl (hne e)
    | _ => simp only [h]
  exact bind_of_error hmessage

/-- Runs `body` as an inclusion in progress, unless it is one already. -/
def entering {α : Type} (path : String) (span : Span) (body : Eval α) : Eval α := do
  if (← get).includes.contains path then raise (.includeError path "circular include") span
  else inInclude path body

theorem entering_of_mem {path : String} (h : path ∈ m.includes) (span : Span) (body : Eval α) :
    entering path span body m = raise (.includeError path "circular include") span m := by
  have hget : (MonadState.get : Eval Machine) m = .ok m m := rfl
  unfold entering
  rw [bind_of_ok hget, if_pos (List.contains_iff_mem.mpr h)]

theorem entering_of_notMem {path : String} (h : path ∉ m.includes) (span : Span)
    (body : Eval α) : entering path span body m = inInclude path body m := by
  have hget : (MonadState.get : Eval Machine) m = .ok m m := rfl
  unfold entering
  rw [bind_of_ok hget, if_neg (mt List.contains_iff_mem.mp h)]

end Eval

open Eval

/-- What is to hold of two runs that are the same until the first of them ends early. -/
structure Regime where
  /-- The calls that may be in progress when both begin. -/
  Starts : Array CallFrame → Prop
  /-- The files that may be entered. -/
  Opens : String → Prop := fun _ => True
  /-- How the second run may end if the first, from this machine, halts and leaves that one. -/
  Halts : {α : Type} → Machine → Halt → Machine → EStateM.Result Halt Machine α → Prop
  /-- What came before does not matter. -/
  halts_after : ∀ {α : Type} {m n o : Machine} {h : Halt} {r : EStateM.Result Halt Machine α},
    m.Leads n → Halts n h o r → Halts m h o r
  /-- Nor does what would come next. -/
  halts_bind : ∀ {α β : Type} {m n : Machine} {h : Halt} {y : Eval α} (g : α → Eval β),
    Halts m h n (y m) → Halts m h n ((y >>= g) m)
  halts_outOfFuel : ∀ {α : Type} (m : Machine), Halts (α := α) m .outOfFuel m (.error .outOfFuel m)
  /-- An exception that is raised is raised in both, and says which calls are in progress. -/
  halts_raise : ∀ {α : Type} {m : Machine} {e : Exception}, Starts m.calls → e.traceback = m.calls →
    Halts (α := α) m (.exception e) m (.error (.exception e) m)
  /-- What is raised for an instance, if its text ends early. -/
  halts_raiseWith : ∀ {α : Type} {m n : Machine} {h h' : Halt} {id : Nat} {span : Span}
    {x y : Eval String}, Starts m.calls → m.Leads n → x m = .error h n → Halts m h n (y m) →
    Eval.raiseWith (α := α) id span x m = .error h' n →
    Halts (α := α) m h' n (Eval.raiseWith id span y m)
  halts_inCall : ∀ {α : Type} {m n : Machine} {h : Halt} {y : Eval α} (frame : CallFrame),
    Halts { m with calls := m.calls.push frame } h n (y { m with calls := m.calls.push frame }) →
    Halts m h { n with calls := n.calls.pop } (Eval.inCall frame y m)
  halts_inInclude : ∀ {α : Type} {m n : Machine} {h : Halt} {y : Eval α} {path : String},
    path ∉ m.includes → Opens path →
    Halts { m with includes := path :: m.includes } h n
      (y { m with includes := path :: m.includes }) →
    Halts m h { n with includes := n.includes.tail } (Eval.inInclude path y m)

namespace Regime

variable {R : Regime} {homes : Set Nat} {α β : Type}

/-- From a machine, two computations go by the regime: while they run they are the same and give new
variables to no frames but those of `homes`; their result is as said, or the first ends early and
the second as it then may. It is irreducible since Lean would run both computations to see whether
the statement is a function type. -/
@[irreducible] def AbidesAt (R : Regime) (homes : Set Nat) (m : Machine) (Q : α → Prop)
    (x y : Eval α) : Prop :=
  match x m with
  | .ok a n => y m = .ok a n ∧ m.Within homes n ∧ Q a
  | .error h n => m.Within homes n ∧ R.Halts m h n (y m)

/-- From every machine with checked functions at which the runs may begin. -/
def AbidesWith (R : Regime) (homes : Set Nat) (Q : α → Prop) (x y : Eval α) : Prop :=
  ∀ m : Machine, m.store.Checked → R.Starts m.calls → R.AbidesAt homes m Q x y

/-- With results of any kind. -/
abbrev Abides (R : Regime) (homes : Set Nat) (x y : Eval α) : Prop :=
  R.AbidesWith homes (fun _ => True) x y

namespace AbidesAt

variable {m : Machine} {Q : α → Prop} {Q' : β → Prop} {x y : Eval α}

theorem ofOk {a : α} {n : Machine} (hx : x m = .ok a n) (hy : y m = .ok a n)
    (hwithin : m.Within homes n) (hq : Q a) : R.AbidesAt homes m Q x y := by
  unfold AbidesAt
  rw [hx]
  exact ⟨hy, hwithin, hq⟩

theorem ofError {h : Halt} {n : Machine} (hx : x m = .error h n) (hwithin : m.Within homes n)
    (hh : R.Halts m h n (y m)) : R.AbidesAt homes m Q x y := by
  unfold AbidesAt
  rw [hx]
  exact ⟨hwithin, hh⟩

theorem of_ok (h : R.AbidesAt homes m Q x y) {a : α} {n : Machine} (hx : x m = .ok a n) :
    y m = .ok a n ∧ m.Within homes n ∧ Q a := by
  unfold AbidesAt at h
  rwa [hx] at h

theorem of_error (h : R.AbidesAt homes m Q x y) {halt : Halt} {n : Machine}
    (hx : x m = .error halt n) : m.Within homes n ∧ R.Halts m halt n (y m) := by
  unfold AbidesAt at h
  rwa [hx] at h

/-- What runs between two machines goes by the regime from the earlier one. -/
theorem after {n : Machine} {u v : Eval α} (hwithin : m.Within homes n)
    (h : R.AbidesAt homes n Q x y) (hu : u m = x n) (hv : v m = y n) :
    R.AbidesAt homes m Q u v := by
  cases hx : x n with
  | ok a o =>
    obtain ⟨hy, hwithin', hq⟩ := h.of_ok hx
    exact ofOk (hu.trans hx) (hv.trans hy) (hwithin.trans hwithin') hq
  | error halt o =>
    obtain ⟨hwithin', hh⟩ := h.of_error hx
    refine ofError (hu.trans hx) (hwithin.trans hwithin') ?_
    rw [hv]
    exact R.halts_after hwithin.leads hh

theorem bind {f g : α → Eval β} (hx : R.AbidesAt homes m Q x y) (hm : m.store.Checked)
    (hs : R.Starts m.calls) (hf : ∀ a, Q a → R.AbidesWith homes Q' (f a) (g a)) :
    R.AbidesAt homes m Q' (x >>= f) (y >>= g) := by
  cases h : x m with
  | ok a n =>
    obtain ⟨hy, hwithin, hq⟩ := hx.of_ok h
    have hn := hf a hq n (hwithin.checked hm) (hwithin.leads.calls ▸ hs)
    exact hn.after hwithin (bind_of_ok h) (bind_of_ok hy)
  | error halt n =>
    obtain ⟨hwithin, hh⟩ := hx.of_error h
    exact ofError (bind_of_error h) hwithin (R.halts_bind g hh)

/-- A call in progress is left however its body ends. -/
theorem inCall {frame : CallFrame}
    (h : R.AbidesAt homes { m with calls := m.calls.push frame } Q x y) :
    R.AbidesAt homes m Q (Eval.inCall frame x) (Eval.inCall frame y) := by
  cases hx : x { m with calls := m.calls.push frame } with
  | ok a n =>
    obtain ⟨hy, hwithin, hq⟩ := h.of_ok hx
    exact ofOk (inCall_of_ok hx) (inCall_of_ok hy) ⟨.call frame hwithin.leads, hwithin.confined, hwithin.dicts⟩ hq
  | error halt n =>
    obtain ⟨hwithin, hh⟩ := h.of_error hx
    exact ofError (inCall_of_error hx) ⟨.call frame hwithin.leads, hwithin.confined, hwithin.dicts⟩
      (R.halts_inCall frame hh)

theorem inInclude {path : String} (hpath : path ∉ m.includes) (hopens : R.Opens path)
    (h : R.AbidesAt homes { m with includes := path :: m.includes } Q x y) :
    R.AbidesAt homes m Q (Eval.inInclude path x) (Eval.inInclude path y) := by
  cases hx : x { m with includes := path :: m.includes } with
  | ok a n =>
    obtain ⟨hy, hwithin, hq⟩ := h.of_ok hx
    exact ofOk (inInclude_of_ok hx) (inInclude_of_ok hy)
      ⟨.includeFile path hpath hwithin.leads, hwithin.confined, hwithin.dicts⟩ hq
  | error halt n =>
    obtain ⟨hwithin, hh⟩ := h.of_error hx
    exact ofError (inInclude_of_error hx) ⟨.includeFile path hpath hwithin.leads, hwithin.confined, hwithin.dicts⟩
      (R.halts_inInclude hpath hopens hh)

end AbidesAt

namespace AbidesWith

variable {Q : α → Prop} {Q' : β → Prop}

theorem pure {a : α} (h : Q a) : R.AbidesWith homes Q (Pure.pure a) (Pure.pure a) :=
  fun m _ _ => .ofOk rfl rfl (.refl m) h

theorem done (a : α) : R.Abides homes (Pure.pure a) (Pure.pure a) := pure trivial

theorem bind {x y : Eval α} {f g : α → Eval β} (hx : R.AbidesWith homes Q x y)
    (hf : ∀ a, Q a → R.AbidesWith homes Q' (f a) (g a)) :
    R.AbidesWith homes Q' (x >>= f) (y >>= g) :=
  fun m hm hs => (hx m hm hs).bind hm hs hf

theorem weaken {P : α → Prop} {x y : Eval α} (hx : R.AbidesWith homes Q x y)
    (h : ∀ a, Q a → P a) : R.AbidesWith homes P x y := by
  have hbind := bind hx fun a hq => pure (h a hq)
  rwa [bind_pure, bind_pure] at hbind

theorem mono {homes' : Set Nat} {x y : Eval α} (h : R.AbidesWith homes Q x y)
    (hsub : homes ⊆ homes') : R.AbidesWith homes' Q x y := by
  intro m hm hs
  cases hx : x m with
  | ok a n =>
    obtain ⟨hy, hwithin, hq⟩ := (h m hm hs).of_ok hx
    exact .ofOk hx hy (hwithin.mono hsub) hq
  | error halt n =>
    obtain ⟨hwithin, hh⟩ := (h m hm hs).of_error hx
    exact .ofError hx (hwithin.mono hsub) hh

theorem mapM {f g : α → Eval β} (h : ∀ a, R.Abides homes (f a) (g a)) (as : List α) :
    R.AbidesWith homes (fun bs => bs.length = as.length) (as.mapM f) (as.mapM g) := by
  induction as with
  | nil => exact pure rfl
  | cons a as ih =>
    rw [List.mapM_cons, List.mapM_cons]
    exact bind (h a) fun _ _ => bind ih fun _ hlength => pure (congrArg (· + 1) hlength)

theorem get : R.AbidesWith homes (fun m => m.store.Checked) get get :=
  fun m hm _ => .ofOk rfl rfl (.refl m) hm

theorem store : R.AbidesWith homes Store.Checked store store :=
  fun m hm _ => .ofOk rfl rfl (.refl m) hm

theorem action {x : Store.Action α} (h : Store.Keeps homes x Q) :
    R.AbidesWith homes Q (liftM x) (liftM x) := fun m hm _ =>
  have hx := h m.store hm
  .ofOk rfl rfl (.ofStore hx.1) hx.2

/-- A frame may get variables from the time it is made. -/
theorem newFrame {f : Frame} {g g' : Nat → Eval β}
    (h : ∀ id, R.AbidesWith (insert id homes) Q' (g id) (g' id)) :
    R.AbidesWith homes Q' ((Store.newFrame f : Eval Nat) >>= g)
      ((Store.newFrame f : Eval Nat) >>= g') := by
  intro m hm hs
  have hlead : m.Leads { m with store := { m.store with frames := m.store.frames.push f } } :=
    .store m (.frame f)
  have hbody := h m.store.frames.size _ (hlead.checked hm) (hlead.calls ▸ hs)
  have hmade : (Store.newFrame f : Eval Nat) m = .ok m.store.frames.size
      { m with store := { m.store with frames := m.store.frames.push f } } := rfl
  cases hg : g m.store.frames.size
      { m with store := { m.store with frames := m.store.frames.push f } } with
  | ok b n =>
    obtain ⟨hg', hwithin, hq⟩ := hbody.of_ok hg
    exact .ofOk ((bind_of_ok hmade).trans hg) ((bind_of_ok hmade).trans hg')
      ⟨hlead.trans hwithin.leads, hwithin.confined.fresh, hwithin.dicts⟩ hq
  | error halt n =>
    obtain ⟨hwithin, hh⟩ := hbody.of_error hg
    refine .ofError ((bind_of_ok hmade).trans hg)
      ⟨hlead.trans hwithin.leads, hwithin.confined.fresh, hwithin.dicts⟩ ?_
    rw [bind_of_ok hmade]
    exact R.halts_after hlead hh

theorem print (line : String) : R.Abides homes (print line) (print line) :=
  fun m _ _ => .ofOk rfl rfl ⟨.print m line, .refl _, id⟩ trivial

theorem outOfFuel : R.AbidesWith homes Q outOfFuel outOfFuel :=
  fun m _ _ => .ofError rfl (.refl m) (R.halts_outOfFuel m)

/-- Both raise the same exception, with the calls in progress. -/
theorem exception {e : Machine → Exception} (he : ∀ m, (e m).traceback = m.calls) :
    R.AbidesWith homes Q (do throw (.exception (e (← MonadState.get))))
      (do throw (.exception (e (← MonadState.get)))) :=
  fun m _ hs => .ofError rfl (.refl m) (R.halts_raise hs (he m))

theorem raise (fault : Fault) (span : Span) :
    R.AbidesWith homes Q (raise fault span) (raise fault span) :=
  bind (action (Store.keeps_newInstance _ _)) fun _ _ => exception fun _ => rfl

theorem invalid (message : String) (span : Span) :
    R.AbidesWith homes Q (invalid message span) (invalid message span) :=
  raise _ span

theorem attempt_of {x : Store.Attempt α} (h : Store.Safe x) (hq : ∀ s a t, x s = .ok a t → Q a)
    (span : Span) : R.AbidesWith homes Q (attempt x span) (attempt x span) := by
  intro m hm hs
  have hx := h m.store hm
  cases hxm : x m.store with
  | ok a s =>
    simp only [hxm] at hx
    have hrun := attempt_of_ok hxm span
    exact .ofOk hrun hrun (.ofStore (hx.mono (Set.empty_subset _))) (hq m.store a s hxm)
  | error trouble s =>
    simp only [hxm] at hx
    have hwithin : m.Within homes { m with store := s } := .ofStore (hx.1.mono (Set.empty_subset _))
    cases trouble with
    | defect => exact absurd rfl hx.2
    | fault fault =>
      have hrun := attempt_of_fault hxm span
      have hraise : R.AbidesWith homes Q (Eval.raise fault span) _ := raise fault span
      have hraise := hraise { m with store := s } (hwithin.checked hm) (hwithin.leads.calls ▸ hs)
      exact hraise.after hwithin hrun hrun

theorem attempt {x : Store.Attempt α} (h : Store.Safe x) (span : Span) :
    R.Abides homes (attempt x span) (attempt x span) :=
  attempt_of h (fun _ _ _ _ => trivial) span

theorem raiseWith {x y : Eval String} (h : R.Abides homes x y) (id : Nat) (span : Span) :
    R.AbidesWith homes Q (raiseWith id span x) (raiseWith id span y) := by
  intro m hm hs
  cases hx : x m with
  | ok text n =>
    obtain ⟨hy, hwithin, -⟩ := (h m hm hs).of_ok hx
    have hraise := R.halts_raise (α := α) (e := raised id span text n)
      (hwithin.leads.calls ▸ hs) rfl
    refine .ofError (raiseWith_of_ok hx id span) hwithin ?_
    rw [raiseWith_of_ok hy]
    exact R.halts_after hwithin.leads hraise
  | error halt n =>
    obtain ⟨hwithin, hh⟩ := (h m hm hs).of_error hx
    obtain ⟨halt', hrun⟩ : ∃ halt', Eval.raiseWith (α := α) id span x m = .error halt' n := by
      cases halt with
      | exception e => exact ⟨_, raiseWith_of_exception hx id span⟩
      | _ => exact ⟨_, raiseWith_of_halt hx nofun id span⟩
    exact .ofError hrun hwithin (R.halts_raiseWith hs hwithin.leads hx hh hrun)

/-- A file is entered only while it is not being included. -/
theorem entering {x y : Eval α} {path : String} (hopens : R.Opens path) (span : Span)
    (h : R.AbidesWith homes Q x y) :
    R.AbidesWith homes Q (entering path span x) (entering path span y) := by
  intro m hm hstart
  by_cases hin : path ∈ m.includes
  · have hraise : R.AbidesWith homes Q (Eval.raise (.includeError path "circular include") span) _ :=
      raise _ span
    exact (hraise m hm hstart).after (.refl m) (entering_of_mem hin span x)
      (entering_of_mem hin span y)
  · have hbody := h { m with includes := path :: m.includes } hm hstart
    exact (hbody.inInclude hin hopens).after (.refl m) (entering_of_notMem hin span x)
      (entering_of_notMem hin span y)

end AbidesWith

/-- The regime in which both runs are the same to their ends, and these are as said, which may depend
on the calls in progress. -/
def same (Starts : Array CallFrame → Prop) (Ends : Array CallFrame → Halt → Prop)
    (outOfFuel : ∀ calls, Ends calls .outOfFuel)
    (exception : ∀ e, Starts e.traceback → Ends e.traceback (.exception e))
    (inCall : ∀ calls frame h, Ends (calls.push frame) h → Ends calls h) : Regime where
  Starts := Starts
  Halts m h n r := r = .error h n ∧ Ends m.calls h
  halts_after hlead hh := ⟨hh.1, hlead.calls ▸ hh.2⟩
  halts_bind _ hh := ⟨bind_of_error hh.1, hh.2⟩
  halts_outOfFuel m := ⟨rfl, outOfFuel m.calls⟩
  halts_raise {_ m e} hs he := by
    have hends := exception e (he ▸ hs)
    exact ⟨rfl, he ▸ hends⟩
  halts_raiseWith {_ m n h h' id span x y} hs hlead hx hh hrun := by
    obtain ⟨hy, hends⟩ := hh
    cases h with
    | exception e =>
      rw [raiseWith_of_exception hx] at hrun
      rw [raiseWith_of_exception hy]
      cases hrun
      have hcalls : Starts n.calls := hlead.calls ▸ hs
      have hraised : Ends n.calls _ := exception (raised id span (n.store.instanceText id) n) hcalls
      exact ⟨rfl, hlead.calls ▸ hraised⟩
    | _ =>
      rw [raiseWith_of_halt hx nofun] at hrun
      rw [raiseWith_of_halt hy nofun]
      cases hrun
      exact ⟨rfl, hends⟩
  halts_inCall {_ m _ h _} frame hh := ⟨inCall_of_error hh.1, inCall m.calls frame h hh.2⟩
  halts_inInclude _ _ hh := ⟨inInclude_of_error hh.1, hh.2⟩

end Regime
end Rill
