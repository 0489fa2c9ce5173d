import Rill.Proofs.Outcome
import Rill.Proofs.Syntax.Spelling

/-! What a reader that succeeds has read. -/
namespace Rill.Syntax

open Token (Word Kind)

namespace Input

/-- Nothing comes after the token at the end. -/
def Ended (i : Input) : Prop := i.finish.kind = .eof

/-- The token that is seen next. -/
def Next (i : Input) (t : Token) : Prop :=
  (i.rest = [] ∧ t = i.finish) ∨ ∃ rest, i.rest = .ok t :: rest

/-- The words between two places of a source. -/
def Past (i : Input) (ws : List Word) (j : Input) : Prop :=
  ∃ ts : List Token, i.rest = ts.map .ok ++ j.rest ∧ ts.map Token.word = ws ∧ j.finish = i.finish

theorem Next.unique {i : Input} {t u : Token} (ht : i.Next t) (hu : i.Next u) : t = u := by
  rcases ht with ⟨hi, rfl⟩ | ⟨r, hi⟩ <;> rcases hu with ⟨hj, rfl⟩ | ⟨r', hj⟩
  · rfl
  · simp [hi] at hj
  · simp [hj] at hi
  · have heq := hi.symm.trans hj
    injection heq with heq
    injection heq

theorem Past.refl (i : Input) : i.Past [] i := ⟨[], rfl, rfl, rfl⟩

theorem Past.trans {i j k : Input} {vs ws : List Word} (h : i.Past vs j) (h' : j.Past ws k) :
    i.Past (vs ++ ws) k := by
  obtain ⟨ts, hts, rfl, hf⟩ := h
  obtain ⟨us, hus, rfl, hf'⟩ := h'
  exact ⟨ts ++ us, by rw [hts, hus, List.map_append, List.append_assoc], List.map_append,
    hf'.trans hf⟩

theorem Past.ended {i j : Input} {ws : List Word} (h : i.Past ws j) (hi : i.Ended) : j.Ended := by
  obtain ⟨_, -, -, hf⟩ := h
  rw [Ended, hf]
  exact hi

theorem Past.length {i j : Input} {ws : List Word} (h : i.Past ws j) :
    i.rest.length = ws.length + j.rest.length := by
  obtain ⟨ts, hts, rfl, -⟩ := h
  rw [hts, List.length_append, List.length_map, List.length_map]

end Input

namespace Parser

variable {α β : Type} {i : Input}

/-- Where the reader succeeds, `S` holds of the result, of the words it has consumed and of what it
has left. -/
def Finds (i : Input) (p : Parser α) (S : α → List Word → Input → Prop) : Prop :=
  i.Ended → ∀ a j, p i = .ok a j → ∃ ws, i.Past ws j ∧ S a ws j

namespace Finds

variable {R : α → List Word → Input → Prop} {S : β → List Word → Input → Prop}

theorem pure {a : α} (h : R a [] i) : Finds i (pure a) R := by
  rintro - _ _ ⟨⟩
  exact ⟨[], .refl i, h⟩

theorem bind {p : Parser α} {f : α → Parser β} (hp : Finds i p R)
    (hf : ∀ a vs j, i.Past vs j → R a vs j → Finds j (f a) fun b ws k => S b (vs ++ ws) k) :
    Finds i (p >>= f) S := by
  intro hi b k hrun
  obtain ⟨a, j, hpa, hfa⟩ := of_bind_eq_ok hrun
  obtain ⟨vs, hvs, hr⟩ := hp hi a j hpa
  obtain ⟨ws, hws, hs⟩ := hf a vs j hvs hr (hvs.ended hi) b k hfa
  exact ⟨vs ++ ws, hvs.trans hws, hs⟩

theorem weaken {p : Parser α} {R' : α → List Word → Input → Prop} (hp : Finds i p R)
    (h : ∀ a ws j, i.Past ws j → R a ws j → R' a ws j) : Finds i p R' := by
  intro hi a j hrun
  obtain ⟨ws, hws, hr⟩ := hp hi a j hrun
  exact ⟨ws, hws, h a ws j hws hr⟩

theorem fail {fault : Fault} {span : Text.Span} : Finds i (Parser.fail fault span) R := nofun

end Finds

theorem finds_remaining :
    Finds i remaining fun n ws j => n = i.rest.length ∧ ws = [] ∧ j = i := by
  rintro - _ _ ⟨⟩
  exact ⟨[], .refl i, rfl, rfl, rfl⟩

theorem finds_peek : Finds i peek fun t ws j => i.Next t ∧ ws = [] ∧ j = i := by
  rintro - t j hrun
  obtain ⟨rest, finish⟩ := i
  match rest, hrun with
  | [], hrun =>
    cases hrun
    exact ⟨[], .refl _, .inl ⟨rfl, rfl⟩, rfl, rfl⟩
  | .ok u :: rest, hrun =>
    cases hrun
    exact ⟨[], .refl _, .inr ⟨rest, rfl⟩, rfl, rfl⟩
  | .error e :: rest, hrun => cases hrun

/-- A token is consumed unless it is the end. -/
theorem finds_next : Finds i next fun t ws _ =>
    i.Next t ∧ ((t.kind = .eof ∧ ws = []) ∨ ws = [t.word]) := by
  intro hi t j hrun
  obtain ⟨rest, finish⟩ := i
  match rest, hrun with
  | [], hrun =>
    cases hrun
    exact ⟨[], .refl _, .inl ⟨rfl, rfl⟩, .inl ⟨hi, rfl⟩⟩
  | .ok u :: rest, hrun =>
    cases hrun
    exact ⟨[t.word], ⟨[t], rfl, rfl, rfl⟩, .inr ⟨rest, rfl⟩, .inr rfl⟩
  | .error e :: rest, hrun => cases hrun

/-- The word of a token whose kind is known. -/
theorem finds_token : Finds i next fun t ws _ =>
    ∀ k, t.kind = k → k ≠ .eof → ws = [⟨k, t.text⟩] := by
  refine finds_next.weaken fun t ws _ _ h k hk hne => ?_
  obtain ⟨-, ⟨heof, -⟩ | rfl⟩ := h
  · exact absurd (hk.symm.trans heof) hne
  · rw [← hk]
    rfl

/-- A token that was looked at before is consumed. -/
theorem finds_peeked {token : Token} (hnext : i.Next token) (hk : token.kind ≠ .eof) :
    Finds i next fun t ws _ => t = token ∧ ws = [token.word] := by
  refine finds_next.weaken fun t ws _ _ h => ?_
  obtain ⟨ht, ⟨heof, -⟩ | rfl⟩ := h
  · rw [ht.unique hnext] at heof
    exact absurd heof hk
  · rw [ht.unique hnext]
    exact ⟨rfl, rfl⟩

theorem finds_expect {k : Kind} (hk : k ≠ .eof) :
    Finds i (expect k) fun t ws _ => ws = [⟨k, t.text⟩] := by
  refine .bind finds_token fun t vs _ _ h => ?_
  split
  next heq => exact .pure (by rw [h k heq hk]; rfl)
  next => exact .fail

theorem finds_symbol (s : Symbol) :
    Finds i (symbol s) fun t ws _ => ws = [⟨.symbol s, t.text⟩] :=
  finds_expect nofun

theorem finds_keyword (k : Keyword) :
    Finds i (keyword k) fun t ws _ => ws = [⟨.keyword k, t.text⟩] :=
  finds_expect nofun

theorem finds_eat? {k : Kind} (hk : k ≠ .eof) : Finds i (eat? k) fun found ws j =>
    match found with
    | some t => ws = [⟨k, t.text⟩]
    | none => ws = [] ∧ j = i := by
  refine .bind finds_peek fun t vs j _ ht => ?_
  obtain ⟨ht, rfl, rfl⟩ := ht
  split
  next heq =>
    refine .bind finds_next fun u vs _ _ hu => .pure ?_
    obtain ⟨hu, hvs⟩ := hu
    obtain rfl := ht.unique hu
    rcases hvs with ⟨heof, -⟩ | rfl
    · exact absurd (heq.symm.trans heof) hk
    · rw [← heq]
      rfl
  next => exact .pure ⟨rfl, rfl⟩

theorem finds_check (k : Kind) :
    Finds i (check k) fun _ ws j => ws = [] ∧ j = i := by
  refine .bind finds_peek fun t vs j _ ht => .pure ?_
  obtain ⟨-, rfl, rfl⟩ := ht
  exact ⟨rfl, rfl⟩

theorem finds_skip (s : Symbol) : Finds i (skip s) fun found ws j =>
    match found with
    | true => ∃ t, ws = [⟨.symbol s, t⟩]
    | false => ws = [] ∧ j = i := by
  refine .bind (finds_eat? nofun) fun found vs j _ h => .pure ?_
  rw [List.append_nil]
  cases found with
  | none => exact h
  | some t => exact ⟨t.text, h⟩

theorem finds_skipSemicolons (room : Nat) :
    Finds i (skipSemicolons room) fun _ ws _ => Semicolons 0 ws := by
  have hnone : Semicolons 0 [] := ⟨Nat.le_refl 0, nofun⟩
  induction room generalizing i with
  | zero => exact .pure hnone
  | succ room ih =>
    refine .bind (finds_skip .semicolon) fun found vs j _ h => ?_
    cases found with
    | false =>
      obtain ⟨rfl, rfl⟩ := h
      exact .pure hnone
    | true =>
      obtain ⟨t, rfl⟩ := h
      refine ih.weaken fun _ ws _ _ hws => ⟨Nat.zero_le _, ?_⟩
      rintro w (_ | ⟨_, hw⟩)
      · rfl
      · exact hws.2 w hw

end Parser
end Rill.Syntax
