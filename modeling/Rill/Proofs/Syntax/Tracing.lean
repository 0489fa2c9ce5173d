import Rill.Proofs.Syntax.Finding

/-! The tokens that a reader has consumed where it succeeds. -/
namespace Rill.Syntax.Parser

open Token (Kind)

variable {α β : Type} {i : Input}

/-- Where the reader succeeds, `S` holds of the result, of the tokens it has consumed and of what it
has left. -/
def Traces (i : Input) (p : Parser α) (S : α → List Token → Input → Prop) : Prop :=
  i.Ended → ∀ a j, p i = .ok a j →
    ∃ ts : List Token, i.rest = ts.map .ok ++ j.rest ∧ j.finish = i.finish ∧ S a ts j

namespace Traces

variable {R : α → List Token → Input → Prop} {S : β → List Token → Input → Prop}

theorem pure {a : α} (h : R a [] i) : Traces i (pure a) R := by
  rintro - _ _ ⟨⟩
  exact ⟨[], rfl, rfl, h⟩

theorem bind {p : Parser α} {f : α → Parser β} (hp : Traces i p R)
    (hf : ∀ a us j, i.rest = us.map .ok ++ j.rest → R a us j →
      Traces j (f a) fun b vs k => S b (us ++ vs) k) :
    Traces i (p >>= f) S := by
  intro hi b k hrun
  obtain ⟨a, j, hpa, hfa⟩ := of_bind_eq_ok hrun
  obtain ⟨us, hus, hfinish, hr⟩ := hp hi a j hpa
  have hj : j.Ended := by rw [Input.Ended, hfinish]; exact hi
  obtain ⟨vs, hvs, hfinish', hs⟩ := hf a us j hus hr hj b k hfa
  exact ⟨us ++ vs, by rw [hus, hvs, List.map_append, List.append_assoc],
    hfinish'.trans hfinish, hs⟩

theorem weaken {p : Parser α} {R' : α → List Token → Input → Prop} (hp : Traces i p R)
    (h : ∀ a ts j, R a ts j → R' a ts j) : Traces i p R' := by
  intro hi a j hrun
  obtain ⟨ts, hts, hfinish, hr⟩ := hp hi a j hrun
  exact ⟨ts, hts, hfinish, h a ts j hr⟩

theorem fail {fault : Fault} {span : Text.Span} : Traces i (Parser.fail fault span) R := nofun

/-- The tokens are the same, however it was shown that they were read. -/
theorem and {p : Parser α} {R' : α → List Token → Input → Prop} (hp : Traces i p R)
    (hp' : Traces i p R') : Traces i p fun a ts j => R a ts j ∧ R' a ts j := by
  intro hi a j hrun
  obtain ⟨ts, hts, hfinish, hr⟩ := hp hi a j hrun
  obtain ⟨us, hus, -, hr'⟩ := hp' hi a j hrun
  have hmap : ts.map Except.ok = us.map Except.ok :=
    List.append_cancel_right (hts.symm.trans hus)
  have heq : ts = us := (List.map_inj_right fun _ _ h => Except.ok.inj h).mp hmap
  subst heq
  exact ⟨ts, hts, hfinish, hr, hr'⟩

end Traces

/-- Words that are found are those of the tokens read. -/
theorem Finds.traces {p : Parser α} {S : α → List Token.Word → Input → Prop} (hp : Finds i p S) :
    Traces i p fun a ts j => S a (ts.map Token.word) j := by
  intro hi a j hrun
  obtain ⟨_, ⟨ts, hts, rfl, hfinish⟩, hs⟩ := hp hi a j hrun
  exact ⟨ts, hts, hfinish, hs⟩

theorem traces_remaining : Traces i remaining fun _ ts j => ts = [] ∧ j = i := by
  rintro - _ _ ⟨⟩
  exact ⟨[], rfl, rfl, rfl, rfl⟩

theorem traces_peek : Traces i peek fun t ts j => i.Next t ∧ ts = [] ∧ j = i :=
  finds_peek.traces.weaken fun _ _ _ ⟨ht, hts, hj⟩ => ⟨ht, List.map_eq_nil_iff.mp hts, hj⟩

/-- A token is consumed unless it is the end. -/
theorem traces_next : Traces i next fun t ts _ => t.kind ≠ .eof → ts = [t] := by
  intro hi t j hrun
  obtain ⟨rest, finish⟩ := i
  match rest, hrun with
  | [], hrun =>
    cases hrun
    exact ⟨[], rfl, rfl, fun hne => absurd hi hne⟩
  | .ok u :: rest, hrun =>
    cases hrun
    exact ⟨[t], rfl, rfl, fun _ => rfl⟩
  | .error e :: rest, hrun => cases hrun

theorem traces_expect {k : Kind} (hk : k ≠ .eof) : Traces i (expect k) fun t ts _ => ts = [t] := by
  refine .bind traces_next fun t us _ _ h => ?_
  split
  next heq => exact .pure (by rw [List.append_nil]; exact h (by rwa [heq]))
  next => exact .fail

theorem traces_symbol (s : Symbol) : Traces i (symbol s) fun t ts _ => ts = [t] :=
  traces_expect nofun

theorem traces_keyword (k : Keyword) : Traces i (keyword k) fun t ts _ => ts = [t] :=
  traces_expect nofun

theorem traces_eat? {k : Kind} (hk : k ≠ .eof) : Traces i (eat? k) fun found ts j =>
    match found with
    | some t => ts = [t]
    | none => ts = [] ∧ j = i := by
  refine .bind traces_peek fun t us j _ ht => ?_
  obtain ⟨ht, rfl, rfl⟩ := ht
  split
  next heq =>
    refine .bind (traces_next.and finds_next.traces) fun u us _ _ hu => .pure ?_
    obtain ⟨hus, hnext, -⟩ := hu
    have hkind : u.kind ≠ .eof := by rwa [hnext.unique ht, heq]
    simpa using hus hkind
  next => exact .pure ⟨rfl, rfl⟩

theorem traces_check (k : Kind) : Traces i (check k) fun _ ts j => ts = [] ∧ j = i := by
  refine .bind traces_peek fun t us j _ ht => .pure ?_
  obtain ⟨-, rfl, rfl⟩ := ht
  exact ⟨rfl, rfl⟩

theorem traces_skip (s : Symbol) : Traces i (skip s) fun found ts j =>
    match found with
    | true => ∃ t, ts = [t]
    | false => ts = [] ∧ j = i := by
  refine .bind (traces_eat? nofun) fun found us j _ h => .pure ?_
  rw [List.append_nil]
  cases found with
  | none => exact h
  | some t => exact ⟨t, h⟩

/-- Semicolons are all that is consumed, so nothing has to be known of them. -/
theorem traces_skipSemicolons (room : Nat) : Traces i (skipSemicolons room) fun _ _ _ => True :=
  (finds_skipSemicolons room).traces.weaken fun _ _ _ _ => trivial

end Rill.Syntax.Parser
