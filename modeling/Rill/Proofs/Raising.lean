import Rill.Proofs.Hooks
import Rill.Proofs.Iteration.Methods

/-! What becomes of a message that is raised. -/
namespace Rill

open Text (Span)
open Eval

namespace Store

variable {s : Store} {id : Nat} {text : String}

/-- An instance of the class of exceptions that holds a message and nothing else. -/
structure Bears (s : Store) (id : Nat) (text : String) : Prop where
  payload : s.instances[id]? =
    some ⟨BuiltinClass.exception.number, Table.ofList [("message", .str text)]⟩
  type : s.classes[BuiltinClass.exception.number]? = some (Session.builtinClass .exception)

namespace Bears

theorem field? (h : s.Bears id text) (name : String) :
    s.field? id name = List.lookup name [("message", Value.str text)] := by
  rw [Store.field?, h.payload]
  exact Table.get?_ofList _ name

theorem message (h : s.Bears id text) : s.field? id "message" = some (.str text) := by
  rw [h.field?]
  rfl

theorem typeOf (h : s.Bears id text) : s.typeOf id = BuiltinClass.exception.number := by
  rw [Store.typeOf, h.payload]
  rfl

theorem className (h : s.Bears id text) : s.instanceClassName id = "Exception" := by
  rw [instanceClassName, h.typeOf, Store.className, h.type]
  rfl

theorem instanceText (h : s.Bears id text) : s.instanceText id = "<Exception instance>" := by
  rw [Store.instanceText, h.className]
  rfl

/-- Another instance is nothing to it. -/
theorem push (h : s.Bears id text) (o : Instance) :
    Bears { s with instances := s.instances.push o } id text where
  payload := getElem?_push_of_some h.payload o
  type := h.type

/-- Its text comes from the method that all exceptions have. -/
theorem attribute?_str (h : s.Bears id text) :
    Evaluator.attribute? (.object id) "__str__" s =
      (some (.bound (.builtin (.exception .str)) (.object id)), s) := by
  have hown : s.field? id "__str__" = none := by
    rw [h.field?]
    rfl
  have hclass : (Session.builtinClass .exception).attributes.get? "__str__" =
      some (.native (.builtin (.exception .str))) := by
    decide +kernel
  have hmethod : s.attribute? BuiltinClass.exception.number "__str__" =
      some (.native (.builtin (.exception .str))) := by
    rw [attribute?, h.type]
    simp only [hclass]
  rw [Evaluator.attribute?_object, hown, h.typeOf, hmethod]
  rfl

end Bears
end Store

namespace Evaluator

variable {settings : Settings} {m : Machine} {id : Nat} {text : String}

theorem exceptionMethod_str (h : m.store.Bears id text) (ev : Evaluator) (span : Span) :
    ev.exceptionMethod .str [.object id] span m = .ok (.str text) m := by
  have hread : Eval.store m = .ok m.store m := rfl
  have hthis : thisInstance [.object id] span m = .ok id m := rfl
  unfold exceptionMethod
  rw [bind_of_ok hthis]
  dsimp only
  rw [bind_of_ok hread, h.message]
  rfl

/-- To raise an exception is to make one instance. -/
theorem exists_raise_push {α : Type} (fault : Fault) (span : Span) (m : Machine) :
    ∃ e o, raise (α := α) fault span m =
      .error (.exception e) { m with store := { m.store with
        instances := m.store.instances.push o } } :=
  ⟨_, _, rfl⟩

/-- One call too many leaves nothing but the instance of its exception. -/
theorem exists_call_refused (hdepth : settings.maxCallDepth ≤ m.calls.size) (fuel : Nat)
    (callee : Value) (arguments : List Value) (span : Span) :
    ∃ e o, (ofFuel settings (fuel + 1)).call callee arguments span m =
      .error (.exception e) { m with store := { m.store with
        instances := m.store.instances.push o } } := by
  rw [call_ofFuel, calling_of_lt (Nat.lt_succ_of_le hdepth)]
  obtain ⟨e, o, hraise⟩ := exists_raise_push (α := Value) (.stackOverflow settings.maxCallDepth)
    span { m with calls := m.calls.push ⟨calleeName m.store callee, span⟩ }
  refine ⟨e, o, ?_⟩
  rw [inCall_of_error hraise, Array.pop_push]

/-- The text of such an exception is what a call of the method gives. -/
theorem instanceText_of_bears (h : m.store.Bears id text) (ev : Evaluator) (span : Span) :
    ev.instanceText id false span m =
      (do
        let v ← ev.call (.bound (.builtin (.exception .str)) (.object id)) [] span
        return (Operation.text false).result (← store) v : Eval String) m := by
  rw [Operation.instanceText_eq_consult ev id span false,
    Operation.consult_of_found h.attribute?_str]
  rfl

/-- It is the message, if one more call may be in progress. -/
theorem instanceText_of_lt (h : m.store.Bears id text)
    (hdepth : m.calls.size < settings.maxCallDepth) (fuel : Nat) (span : Span) :
    (ofFuel settings (fuel + 1)).instanceText id false span m = .ok text m := by
  have hbody := exceptionMethod_str
    (m := { m with calls := m.calls.push ⟨"__str__", span⟩ }) h (ofFuel settings fuel) span
  have hcall : (ofFuel settings (fuel + 1)).call (.bound (.builtin (.exception .str)) (.object id))
      [] span m = .ok (.str text) m := by
    rw [call_builtin rfl rfl hdepth]
    refine (inCall_of_ok hbody).trans ?_
    rw [Array.pop_push]
  rw [instanceText_of_bears h, bind_of_ok hcall]
  rfl

/-- If none may, then an exception takes its place. -/
theorem exists_instanceText_of_le (h : m.store.Bears id text)
    (hdepth : settings.maxCallDepth ≤ m.calls.size) (fuel : Nat) (span : Span) :
    ∃ e o, (ofFuel settings (fuel + 1)).instanceText id false span m =
      .error (.exception e) { m with store := { m.store with
        instances := m.store.instances.push o } } := by
  obtain ⟨e, o, hcall⟩ := exists_call_refused hdepth fuel
    (.bound (.builtin (.exception .str)) (.object id)) [] span
  exact ⟨e, o, by rw [instanceText_of_bears h, bind_of_error hcall]⟩

/-- What is raised for it. -/
theorem exists_raiseInstance (settings : Settings) (h : m.store.Bears id text) (fuel : Nat)
    (span : Span) :
    ∃ e n, (ofFuel settings (fuel + 1)).raiseInstance (α := Value) id span m =
        .error (.exception e) n ∧ n.store.Bears e.payload text ∧ e.className = "Exception" ∧
      e.cause = none ∧
      e.message = if m.calls.size < settings.maxCallDepth then text else "<Exception instance>" := by
  by_cases hdepth : m.calls.size < settings.maxCallDepth
  · have htext := instanceText_of_lt h hdepth fuel span
    refine ⟨_, _, raiseWith_of_ok htext id span, h, h.className, rfl, ?_⟩
    rw [if_pos hdepth]
    rfl
  · obtain ⟨e, o, htext⟩ := exists_instanceText_of_le h (Nat.le_of_not_lt hdepth) fuel span
    refine ⟨_, _, raiseWith_of_exception htext id span, h.push o, (h.push o).className, rfl, ?_⟩
    rw [if_neg hdepth]
    exact (h.push o).instanceText

end Evaluator

namespace Session

/-- The built-in classes are in their places in every session that comes about. -/
theorem Reachable.builtinClass {settings : Settings} {session : Session}
    (h : session.Reachable settings) (c : BuiltinClass) :
    session.machine.store.classes[c.number]? = some (builtinClass c) :=
  h.leads.persists.classes ((sound_start settings).builtins c)

end Session

/-- A text that is raised in a state that a session can get into, with any number of calls in
progress, becomes an exception of the built-in class, which the language did not raise itself and in
which the field `message` holds the text. Its message is that text too, if one call more than that of
`raise` may be in progress. If none may, then the method that gives the text cannot be called, and
the message is what an instance is shown as by default. -/
theorem raised_message_kept {settings : Settings} {session : Session} (h : session.Reachable settings)
    {m : Machine} (hlead : session.machine.store.Leads m.store)
    (hdepth : m.calls.size < settings.maxCallDepth) {callee : Value} {arguments : List Value}
    {text : String}
    (hcall : Evaluator.nativeCall? callee arguments =
      some (.builtin (.global .raise), [.str text])) (fuel : Nat) (span : Span) :
    ∃ e n, (Evaluator.ofFuel settings (fuel + 2)).call callee arguments span m =
        .error (.exception e) n ∧
      e.className = "Exception" ∧ e.code = "RT000" ∧
      n.store.typeOf e.payload = BuiltinClass.exception.number ∧
      n.store.field? e.payload "message" = some (.str text) ∧
      (m.calls.size + 1 < settings.maxCallDepth → e.message = text) ∧
      (m.calls.size + 1 = settings.maxCallDepth → e.message = "<Exception instance>") := by
  let fresh : Store := { m.store with
    instances := m.store.instances.push
      ⟨BuiltinClass.exception.number, Table.ofList [("message", .str text)]⟩ }
  let inside : Machine := { m with store := fresh, calls := m.calls.push ⟨"raise", span⟩ }
  have hclass := hlead.persists.classes (h.builtinClass .exception)
  have hbears : inside.store.Bears m.store.instances.size text := ⟨Array.getElem?_push_size, hclass⟩
  obtain ⟨e, n, hraise, hafter, hname, hcause, hmessage⟩ :=
    Evaluator.exists_raiseInstance settings hbears fuel span
  have hsize : inside.calls.size = m.calls.size + 1 := Array.size_push _
  rw [hsize] at hmessage
  refine ⟨e, { n with calls := n.calls.pop }, ?_, hname, ?_, hafter.typeOf, hafter.message,
    fun hlt => ?_, fun heq => ?_⟩
  · rw [Evaluator.call_builtin hcall rfl hdepth]
    exact inCall_of_error hraise
  · rw [Exception.code, hcause]
    rfl
  · rw [hmessage, if_pos hlt]
  · rw [hmessage, if_neg (Nat.not_lt_of_le heq.ge)]

/-- A text is raised in a call, with room for one more call and without. -/
theorem raised_message_kept_limits :
    let settings (limit : Nat) : Settings := ⟨limit, false, fun _ => .error "no such file", #[]⟩
    let raising (limit : Nat) := (Evaluator.ofFuel (settings limit) 9).call
      (.native (.builtin (.global .raise))) [.str "boom"] ⟨0, 13⟩
      { (Session.start (settings limit)).machine with calls := #[⟨"f", ⟨0, 3⟩⟩] }
    (∃ e n, raising 3 = .error (.exception e) n ∧ e.message = "boom") ∧
      ∃ e n, raising 2 = .error (.exception e) n ∧ e.message = "<Exception instance>" ∧
        n.store.field? e.payload "message" = some (.str "boom") := by
  intro settings raising
  have hkept (limit : Nat) (hlimit : 1 < limit) :
      ∃ e n, raising limit = .error (.exception e) n ∧
        n.store.field? e.payload "message" = some (.str "boom") ∧
        (2 < limit → e.message = "boom") ∧ (2 = limit → e.message = "<Exception instance>") := by
    have hreach : (Session.start (settings limit)).Reachable (settings limit) := .start
    dsimp only [raising]
    -- what has been made so far is nothing to the call
    generalize Session.start (settings limit) = session at hreach
    have hcall : Evaluator.nativeCall? (.native (.builtin (.global .raise))) [.str "boom"] =
        some (.builtin (.global .raise), [.str "boom"]) := rfl
    obtain ⟨e, n, hraise, -, -, -, hfield, hmessage⟩ :=
      raised_message_kept hreach (m := { session.machine with calls := #[⟨"f", ⟨0, 3⟩⟩] }) .refl
        hlimit hcall 7 ⟨0, 13⟩
    exact ⟨e, n, hraise, hfield, hmessage⟩
  obtain ⟨e, n, hraise, -, hmessage, -⟩ := hkept 3 (by decide)
  obtain ⟨e', n', hraise', hfield', -, hmessage'⟩ := hkept 2 (by decide)
  exact ⟨⟨e, n, hraise, hmessage (by decide)⟩, e', n', hraise', hmessage' rfl, hfield'⟩

/-- Where no more than one call may be in progress, the message of a text that is raised is another
one. -/
theorem raised_message_lost :
    let settings : Settings := ⟨1, false, fun _ => .error "no such file", #[]⟩
    let ended := (Session.start settings).runWith (.ofFuel settings 9) "raise(\"boom\")"
    ∃ e, ended.1 = .error (.halted (.exception e)) ∧ e.className = "Exception" ∧
      e.code = "RT000" ∧ e.message = "<Exception instance>" ∧ e.message ≠ "boom" := by
  intro settings ended
  have hrun : (Failure.exception? ended.1).map (fun e => (e.className, e.code, e.message)) =
      some ("Exception", "RT000", "<Exception instance>") := by
    decide +kernel
  obtain ⟨e, he, hsaid⟩ := Option.map_eq_some_iff.mp hrun
  simp only [Prod.mk.injEq] at hsaid
  obtain ⟨hname, hcode, hmessage⟩ := hsaid
  refine ⟨e, Failure.exception?_eq_some he, hname, hcode, hmessage, ?_⟩
  rw [hmessage]
  decide

end Rill
