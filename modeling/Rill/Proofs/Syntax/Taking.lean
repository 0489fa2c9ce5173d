import Rill.Proofs.Outcome
import Rill.Proofs.Syntax.Powers

/-! Readers that are sure to succeed on given words. -/
namespace Rill.Syntax

open Token (Word Kind)

/-- The kind of the first word, or of the end. -/
def firstKind : List Word → Kind
  | [] => .eof
  | w :: _ => w.kind

@[simp] theorem firstKind_cons (w : Word) (ws : List Word) : firstKind (w :: ws) = w.kind := rfl

/-- What comes next takes no operand from an operator of this power. -/
def Stops (power : Nat) (rest : List Word) : Prop :=
  ∀ q, (firstKind rest).leftPower? = some q → q < power

theorem stops_of_none {power : Nat} {rest : List Word}
    (h : (firstKind rest).leftPower? = none) : Stops power rest := by
  intro q hq
  rw [h] at hq
  cases hq

/-- The input consists of tokens with these words. -/
def Input.Shows (i : Input) (ws : List Word) : Prop :=
  ∃ ts : List Token, i.rest = ts.map .ok ∧ ts.map Token.word = ws ∧ i.finish.kind = .eof

namespace Parser

variable {α β : Type}

/-- On the words `all` the reader succeeds, leaves `rest` and gives a result of which `Q` holds. -/
def Takes (p : Parser α) (all rest : List Word) (Q : α → Prop) : Prop :=
  ∀ i : Input, i.Shows all → ∃ a j, p i = .ok a j ∧ j.Shows rest ∧ Q a

namespace Takes

variable {Q : α → Prop} {R : β → Prop} {all mid rest : List Word}

theorem pure {a : α} (h : Q a) : Takes (pure a) all all Q := fun i hi => ⟨a, i, rfl, hi, h⟩

theorem bind {p : Parser α} {f : α → Parser β} (hp : Takes p all mid Q)
    (hf : ∀ a, Q a → Takes (f a) mid rest R) : Takes (p >>= f) all rest R := by
  intro i hi
  obtain ⟨a, j, hpa, hj, hq⟩ := hp i hi
  obtain ⟨b, k, hfb, hk, hr⟩ := hf a hq j hj
  exact ⟨b, k, by rw [bind_of_ok hpa, hfb], hk, hr⟩

theorem weaken {p : Parser α} {Q' : α → Prop} (hp : Takes p all rest Q) (h : ∀ a, Q a → Q' a) :
    Takes p all rest Q' := by
  intro i hi
  obtain ⟨a, j, hpa, hj, hq⟩ := hp i hi
  exact ⟨a, j, hpa, hj, h a hq⟩

end Takes

variable {w : Word} {all rest : List Word}

theorem takes_remaining : Takes remaining all all (· = all.length) := by
  intro i hi
  refine ⟨i.rest.length, i, rfl, hi, ?_⟩
  obtain ⟨ts, hts, rfl, -⟩ := hi
  rw [hts, List.length_map, List.length_map]

theorem peek_of_shows {i : Input} (hi : i.Shows all) :
    ∃ t, peek i = .ok t i ∧ t.kind = firstKind all := by
  obtain ⟨rest, finish⟩ := i
  obtain ⟨ts, rfl, rfl, hfinish⟩ := hi
  cases ts with
  | nil => exact ⟨finish, rfl, hfinish⟩
  | cons t ts => exact ⟨t, rfl, rfl⟩

theorem takes_peek : Takes peek all all fun t => t.kind = firstKind all := by
  intro i hi
  obtain ⟨t, hpeek, ht⟩ := peek_of_shows hi
  exact ⟨t, i, hpeek, hi, ht⟩

theorem takes_next : Takes next (w :: rest) rest fun t => t.word = w := by
  rintro ⟨pieces, finish⟩ ⟨ts, rfl, hts, hfinish⟩
  cases ts with
  | nil => cases hts
  | cons t ts =>
    obtain ⟨rfl, rfl⟩ := List.cons.inj hts
    exact ⟨t, ⟨ts.map .ok, finish⟩, rfl, ⟨ts, rfl, rfl, hfinish⟩, rfl⟩

/-- The reader goes on with a token that has the kind and text of the first word. -/
theorem Takes.token {f : Token → Parser β} {k : Kind} {text : String} {all rest : List Word}
    {R : β → Prop} (h : ∀ span, Takes (f ⟨k, text, span⟩) all rest R) :
    Takes (next >>= f) (⟨k, text⟩ :: all) rest R := by
  refine .bind takes_next fun t ht => ?_
  obtain ⟨kind, text', span⟩ := t
  obtain ⟨rfl, rfl⟩ := Word.mk.inj ht
  exact h span

theorem takes_expect {k : Kind} {text : String} :
    Takes (expect k) (⟨k, text⟩ :: rest) rest fun t => t.kind = k ∧ t.text = text := by
  refine .bind takes_next fun t ht => ?_
  obtain ⟨hkind, htext⟩ := Word.mk.inj ht
  rw [if_pos hkind]
  exact .pure ⟨hkind, htext⟩

theorem takes_symbol {s : Symbol} {text : String} :
    Takes (symbol s) (⟨.symbol s, text⟩ :: rest) rest fun _ => True :=
  takes_expect.weaken fun _ _ => trivial

theorem takes_keyword {k : Keyword} {text : String} :
    Takes (keyword k) (⟨.keyword k, text⟩ :: rest) rest fun _ => True :=
  takes_expect.weaken fun _ _ => trivial

theorem takes_eat?_some {k : Kind} {text : String} :
    Takes (eat? k) (⟨k, text⟩ :: rest) rest fun found => found.isSome := by
  refine .bind takes_peek fun t ht => ?_
  have hkind : t.kind = k := ht
  rw [if_pos hkind]
  exact .bind takes_next fun _ _ => .pure rfl

theorem takes_eat?_none {k : Kind} (h : firstKind all ≠ k) :
    Takes (eat? k) all all fun found => found = none := by
  refine .bind takes_peek fun t ht => ?_
  rw [if_neg (by rwa [ht])]
  exact .pure rfl

theorem takes_check_true {k : Kind} (h : firstKind all = k) :
    Takes (check k) all all fun found => found = true :=
  .bind takes_peek fun _ ht => .pure (decide_eq_true (ht.trans h))

theorem takes_check_false {k : Kind} (h : firstKind all ≠ k) :
    Takes (check k) all all fun found => found = false :=
  .bind takes_peek fun _ ht => .pure (decide_eq_false (by rwa [ht]))

theorem takes_skip {s : Symbol} {text : String} :
    Takes (skip s) (⟨.symbol s, text⟩ :: rest) rest fun found => found = true :=
  .bind takes_eat?_some fun _ h => .pure h

theorem takes_skip_false {s : Symbol} (h : firstKind all ≠ .symbol s) :
    Takes (skip s) all all fun found => found = false :=
  .bind (takes_eat?_none h) fun _ h => .pure (by rw [h]; rfl)

theorem takes_skipSemicolons {vs : List Word} (hvs : Semicolons 0 vs) {room : Nat}
    (hroom : vs.length ≤ room) (hrest : firstKind rest ≠ .symbol .semicolon) :
    Takes (skipSemicolons room) (vs ++ rest) rest fun _ => True := by
  induction vs generalizing room with
  | nil =>
    cases room with
    | zero => exact .pure trivial
    | succ room =>
      refine .bind (takes_skip_false hrest) fun found hfound => ?_
      subst hfound
      exact .pure trivial
  | cons v vs ih =>
    obtain ⟨kind, text⟩ := v
    obtain rfl : kind = .symbol .semicolon := hvs.2 _ List.mem_cons_self
    cases room with
    | zero => cases hroom
    | succ room =>
      refine .bind takes_skip fun found hfound => ?_
      subst hfound
      exact ih ⟨Nat.zero_le _, fun w hw => hvs.2 w (List.mem_cons_of_mem _ hw)⟩
        (Nat.le_of_succ_le_succ hroom)

end Parser
end Rill.Syntax
