import Mathlib.Data.Set.Insert
import Rill.Proofs.Syntax.Settling.Rules
import Rill.Proofs.Token.Legibility

/-! Readers decide on the next token alone, and what they have consumed when they fail can be
completed. -/
namespace Rill

namespace Token.Kind

/-- There is a word of this kind. -/
def Writable (k : Kind) : Prop := ∃ text, Word.Legible ⟨k, text⟩

theorem writable_symbol (s : Symbol) : Writable (.symbol s) := by
  refine ⟨s.spelling.text, ?_⟩
  cases s <;> exact ⟨_, _, rfl, by decide, by decide, rfl⟩

theorem writable_keyword (k : Keyword) : Writable (.keyword k) := by
  refine ⟨k.spelling.text, ?_⟩
  cases k <;> exact ⟨_, _, rfl, by decide, by decide, rfl⟩

theorem writable_ident : Writable .ident := ⟨"x", _, _, rfl, by decide, by decide, rfl⟩

theorem writable_string : Writable .string := ⟨"''", _, _, rfl, by decide, by decide, rfl⟩

theorem symbol_ne_eof (s : Symbol) : Kind.symbol s ≠ .eof := by
  rintro ⟨⟩

end Token.Kind

namespace Syntax

open Token (Kind)

namespace Input

variable {i j k : Input} {us vs : List Token} {t : Token}

/-- Every piece that is left is a token. -/
structure Clean (i : Input) : Prop where
  ended : i.Ended
  tokens : ∃ ts : List Token, i.rest = ts.map .ok

theorem Clean.exists_next (h : i.Clean) : ∃ t, i.Next t := by
  obtain ⟨ts, hts⟩ := h.tokens
  cases ts with
  | nil => exact ⟨i.finish, .inl ⟨hts, rfl⟩⟩
  | cons t ts => exact ⟨t, .inr ⟨_, hts⟩⟩

theorem Next.nil_or_cut (h : i.Next t) :
    (i.rest = [] ∧ t = i.finish) ∨ ∃ j, i.Cut ([t].map .ok) j := by
  rcases h with h | ⟨rest, hrest⟩
  · exact .inl h
  · exact .inr ⟨⟨rest, i.finish⟩, hrest, rfl⟩

theorem Cut.next (h : i.Cut (.ok t :: us.map .ok) j) : i.Next t := .inr ⟨_, h.1⟩

theorem Cut.of_nil (h : i.Cut [] j) : j = i := by
  obtain ⟨rest, finish⟩ := i
  obtain ⟨rest', finish'⟩ := j
  obtain ⟨hrest, hfinish⟩ := h
  cases hrest
  cases hfinish
  rfl

theorem Cut.split (h : i.Cut ((us ++ vs).map .ok) k) :
    ∃ j, i.Cut (us.map .ok) j ∧ j.Cut (vs.map .ok) k :=
  ⟨⟨vs.map .ok ++ k.rest, i.finish⟩, ⟨by rw [h.1, List.map_append, List.append_assoc], rfl⟩,
    ⟨rfl, h.2⟩⟩

theorem Cut.append (h : i.Cut (us.map .ok) j) (h' : j.Cut (vs.map .ok) k) :
    i.Cut ((us ++ vs).map .ok) k := by
  rw [List.map_append]
  exact h.trans h'

theorem Cut.length (h : i.Cut (us.map .ok) j) :
    i.rest.length = us.length + j.rest.length := by
  rw [h.1, List.length_append, List.length_map]

theorem Cut.clean (h : i.Cut (us.map .ok) j) (hi : i.Clean) : j.Clean := by
  refine ⟨h.ended hi.ended, ?_⟩
  obtain ⟨ts, hts⟩ := hi.tokens
  refine ⟨ts.drop us.length, ?_⟩
  rw [List.map_drop, ← hts, h.1, ← List.length_map Except.ok, List.drop_left]

end Input

/-- What may be seen first of the tokens `ts` and then of something as `G` says. -/
def Ahead (G : Token → Prop) : List Token → Token → Prop
  | [] => G
  | t :: _ => (· = t)

theorem Ahead.mono {G G' : Token → Prop} {ts : List Token} {t : Token} (h : Ahead G ts t)
    (hG : ∀ t, G t → G' t) : Ahead G' ts t := by
  cases ts with
  | nil => exact hG t h
  | cons => exact h

theorem Input.Cut.ahead {i j : Input} {ts : List Token} {t : Token} {G : Token → Prop}
    (h : i.Cut (ts.map .ok) j) (ht : j.Next t) (hG : G t) : ∃ u, i.Next u ∧ Ahead G ts u := by
  cases ts with
  | nil => exact ⟨t, h.of_nil ▸ ht, hG⟩
  | cons u ts => exact ⟨u, h.next, rfl⟩

/-- What may follow a pass of a loop: something in `G` where the loop goes on. -/
def Pass.follow {σ β : Type} (G : Set Kind) (Q : β → Set Kind) : Pass σ β → Set Kind
  | .goOn _ => G
  | .done b => Q b

namespace Parser

variable {α β : Type} {i j k : Input} {us vs : List Token} {t : Token} {fault : Fault}
  {G G' : Token → Prop} {p q : Parser α} {a : α} {b : β}

/-- Before something as `G` says, the tokens are read as `a`. -/
def Accepts (p : Parser α) (us : List Token) (G : Token → Prop) (a : α) : Prop :=
  ∀ i j : Input, i.Ended → i.Cut (us.map .ok) j → ∀ t, j.Next t → G t → p i = .ok a j

/-- After the tokens `us`, the reader fails at `t`, whatever follows. -/
def Rejects (p : Parser α) (us : List Token) (t : Token) (fault : Fault) : Prop :=
  ∀ i j : Input, i.Ended → i.Cut (us.map .ok) j → j.Next t →
    ∃ k, p i = .error ⟨fault, t.span⟩ k

namespace Accepts

theorem pure : Accepts (pure a) [] G a := fun i j _ hcut _ _ _ => by
  rw [hcut.of_nil]
  rfl

theorem mono (h : Accepts p us G a) (hG : ∀ t, G' t → G t) : Accepts p us G' a :=
  fun i j hi hcut t ht hGt => h i j hi hcut t ht (hG t hGt)

theorem congr (h : Accepts q us G a) (hpq : ∀ i t, i.Ended → i.Next t → Ahead G us t → p i = q i) :
    Accepts p us G a := fun i j hi hcut t ht hGt => by
  obtain ⟨u, hu, hahead⟩ := hcut.ahead ht hGt
  rw [hpq i u hi hu hahead]
  exact h i j hi hcut t ht hGt

theorem bind {f : α → Parser β} (hp : Accepts p us G a) (hf : Accepts (f a) vs G' b)
    (h : ∀ t, Ahead G' vs t → G t) : Accepts (p >>= f) (us ++ vs) G' b := by
  intro i k hi hcut t ht hGt
  obtain ⟨j, hus, hvs⟩ := hcut.split
  obtain ⟨u, hu, hahead⟩ := hvs.ahead ht hGt
  rw [bind_of_ok (hp i j hi hus u hu (h u hahead))]
  exact hf j k (hus.ended hi) hvs t ht hGt

theorem next {f : Token → Parser β} (h : Accepts (f t) us G b) :
    Accepts (next >>= f) (t :: us) G b := by
  rintro ⟨rest, finish⟩ k hi ⟨hrest, hfinish⟩ u hu hGu
  cases hrest
  exact h ⟨us.map .ok ++ k.rest, finish⟩ k hi ⟨rfl, hfinish⟩ u hu hGu

end Accepts

namespace Rejects

theorem congr (h : Rejects q us t fault)
    (hpq : ∀ i u, i.Ended → i.Next u → Ahead (· = t) us u → p i = q i) :
    Rejects p us t fault := fun i j hi hcut ht => by
  obtain ⟨u, hu, hahead⟩ := hcut.ahead (G := (· = t)) ht rfl
  rw [hpq i u hi hu hahead]
  exact h i j hi hcut ht

theorem left {f : α → Parser β} (h : Rejects p us t fault) : Rejects (p >>= f) us t fault := by
  intro i j hi hcut ht
  obtain ⟨k, hk⟩ := h i j hi hcut ht
  exact ⟨k, bind_of_error hk⟩

theorem bind {f : α → Parser β} (hp : Accepts p us G a) (hf : Rejects (f a) vs t fault)
    (h : ∀ u, Ahead (· = t) vs u → G u) : Rejects (p >>= f) (us ++ vs) t fault := by
  intro i k hi hcut ht
  obtain ⟨j, hus, hvs⟩ := hcut.split
  obtain ⟨u, hu, hahead⟩ := hvs.ahead (G := (· = t)) ht rfl
  rw [bind_of_ok (hp i j hi hus u hu (h u hahead))]
  exact hf j k (hus.ended hi) hvs ht

theorem next {f : Token → Parser β} {u : Token} (h : Rejects (f u) us t fault) :
    Rejects (next >>= f) (u :: us) t fault := by
  rintro ⟨rest, finish⟩ k hi ⟨hrest, hfinish⟩ ht
  cases hrest
  exact h ⟨us.map .ok ++ k.rest, finish⟩ k hi ⟨rfl, hfinish⟩ ht

end Rejects

theorem peek_of_next (h : i.Next t) : peek i = .ok t i := by
  obtain ⟨rest, finish⟩ := i
  obtain ⟨hrest, rfl⟩ | ⟨rest, hrest⟩ := h <;> cases hrest <;> rfl

theorem next_of_next (h : i.Next t) : ∃ j, next i = .ok t j := by
  obtain ⟨rest, finish⟩ := i
  obtain ⟨hrest, rfl⟩ | ⟨rest, hrest⟩ := h <;> cases hrest <;> exact ⟨_, rfl⟩

theorem rejects_next {f : Token → Parser β} (h : f t = fail fault t.span) :
    Rejects (next >>= f) [] t fault := by
  intro i j _ hcut ht
  rw [hcut.of_nil] at ht
  obtain ⟨k, hk⟩ := next_of_next ht
  rw [bind_of_ok hk, h]
  exact ⟨k, rfl⟩

/-! ### Completions -/

/-- The reader accepts some tokens of which the first, or what follows them, is in `K`. What may
follow is in `H`. -/
def Opens (K : Set Kind) (H : α → Set Kind) (p : Parser α) : Prop :=
  ∃ vs a, (∀ v ∈ vs, v.word.Legible) ∧ Accepts p vs (·.kind ∈ H a) a ∧
    ∀ t, Ahead (·.kind ∈ H a) vs t → t.kind ∈ K

/-- Whatever the reader does here, it does by the next token alone. Where it succeeds, it would
before other tokens of the kinds in `H`, which are in `J` if nothing is consumed. Where it fails after
some tokens, these can be completed. -/
structure ViableAt (i : Input) (J : Set Kind) (H : α → Set Kind) (p : Parser α) : Prop where
  ok {a : α} {j : Input} : p i = .ok a j → ∃ us : List Token, i.Cut (us.map .ok) j ∧
    (∀ t, j.Next t → Accepts p us (fun u => u.kind ∈ H a ∨ u = t) a) ∧ (us = [] → H a ⊆ J)
  error {e : Error} {j : Input} : p i = .error e j → ∃ (us : List Token) (k : Input) (t : Token),
    i.Cut (us.map .ok) k ∧ k.Next t ∧ e.span = t.span ∧ Rejects p us t e.fault ∧
    (us ≠ [] → ∃ vs a, (∀ v ∈ vs, v.word.Legible) ∧ Accepts p (us ++ vs) (·.kind ∈ H a) a)

/-- The reader is viable wherever fewer than `n` tokens are left. -/
def Viable (n : Nat) (J : Set Kind) (H : α → Set Kind) (p : Parser α) : Prop :=
  ∀ i : Input, i.Clean → i.rest.length < n → ViableAt i J H p

/-- The reader is viable and there is something for it to read. -/
structure Guides (n : Nat) (J K : Set Kind) (H : α → Set Kind) (p : Parser α) : Prop where
  viable : Viable n J H p
  opens : Opens K H p

variable {n : Nat} {J J' K K' : Set Kind} {H H' : α → Set Kind} {Q : β → Set Kind}

namespace Opens

theorem mono (h : Opens K H p) (hK : K ⊆ K') (hH : ∀ a, H' a ⊆ H a) : Opens K' H' p := by
  obtain ⟨vs, a, hvs, haccepts, hfirst⟩ := h
  exact ⟨vs, a, hvs, haccepts.mono fun _ ht => hH a ht,
    fun t ht => hK (hfirst t (ht.mono fun _ ht => hH a ht))⟩

theorem congr (h : Opens K H q) (hpq : ∀ i t, i.Ended → i.Next t → t.kind ∈ K → p i = q i) :
    Opens K H p := by
  obtain ⟨vs, a, hvs, haccepts, hfirst⟩ := h
  exact ⟨vs, a, hvs, haccepts.congr fun i t hi ht hahead => hpq i t hi ht (hfirst t hahead), hfirst⟩

theorem pure (h : H a ⊆ K) : Opens K H (pure a) := ⟨[], a, nofun, .pure, fun _ ht => h ht⟩

theorem bind {f : α → Parser β} (hp : Opens K H p) (hf : ∀ a, Opens (H a) Q (f a)) :
    Opens K Q (p >>= f) := by
  obtain ⟨us, a, hus, hpa, hfirst⟩ := hp
  obtain ⟨vs, b, hvs, hfb, hnext⟩ := hf a
  refine ⟨us ++ vs, b, ?_, hpa.bind hfb hnext, ?_⟩
  · intro v hv
    exact (List.mem_append.mp hv).elim (hus v) (hvs v)
  · intro t ht
    cases us with
    | nil => exact hfirst t (hnext t ht)
    | cons => exact hfirst t ht

/-- A token of a kind that can be written. -/
theorem next {k : Kind} {f : Token → Parser β} (hw : k.Writable) (hk : k ∈ K)
    (hf : ∀ t, t.kind = k → Opens Set.univ Q (f t)) : Opens K Q (next >>= f) := by
  obtain ⟨text, htext⟩ := hw
  obtain ⟨vs, b, hvs, hfb, -⟩ := hf ⟨k, text, default⟩ rfl
  refine ⟨⟨k, text, default⟩ :: vs, b, ?_, hfb.next, ?_⟩
  · exact List.forall_mem_cons.mpr ⟨htext, hvs⟩
  · rintro _ rfl
    exact hk

/-- Where the next token is in `C`, the reader goes on as `q` does. -/
theorem peek {C : Set Kind} {f : Token → Parser β} {q : Parser β} (hq : Opens (K ∩ C) Q q)
    (h : ∀ t, t.kind ∈ C → f t = q) : Opens K Q (peek >>= f) := by
  refine (hq.congr fun i t _ ht hmem => ?_).mono Set.inter_subset_left fun _ => subset_rfl
  rw [bind_of_ok (peek_of_next ht), h t hmem.2]

end Opens

namespace ViableAt

theorem mono (h : ViableAt i J H p) (hJ : J ⊆ J') (hH : ∀ a, H' a ⊆ H a) : ViableAt i J' H' p := by
  refine ⟨fun hok => ?_, fun herror => ?_⟩
  · obtain ⟨us, hcut, haccepts, hnil⟩ := h.ok hok
    exact ⟨us, hcut, fun t ht => (haccepts t ht).mono fun u hu => hu.imp_left fun hu => hH _ hu,
      fun hus => (hH _).trans ((hnil hus).trans hJ)⟩
  · obtain ⟨us, k, t, hcut, ht, hspan, hrejects, hmore⟩ := h.error herror
    refine ⟨us, k, t, hcut, ht, hspan, hrejects, fun hus => ?_⟩
    obtain ⟨vs, a, hvs, haccepts⟩ := hmore hus
    exact ⟨vs, a, hvs, haccepts.mono fun u hu => hH a hu⟩

theorem congr (h : ViableAt i J H q) (hi : i.Ended) (hpq : ∀ i, i.Ended → p i = q i) :
    ViableAt i J H p := by
  refine ⟨fun hok => ?_, fun herror => ?_⟩
  · obtain ⟨us, hcut, haccepts, hnil⟩ := h.ok ((hpq i hi).symm.trans hok)
    exact ⟨us, hcut, fun t ht => (haccepts t ht).congr fun i _ hi _ _ => hpq i hi, hnil⟩
  · obtain ⟨us, k, t, hcut, ht, hspan, hrejects, hmore⟩ := h.error ((hpq i hi).symm.trans herror)
    refine ⟨us, k, t, hcut, ht, hspan, hrejects.congr fun i _ hi _ _ => hpq i hi, fun hus => ?_⟩
    obtain ⟨vs, a, hvs, haccepts⟩ := hmore hus
    exact ⟨vs, a, hvs, haccepts.congr fun i _ hi _ _ => hpq i hi⟩

/-- A reader that consumes something only has to agree where the same token comes next. -/
theorem congr_next (h : ViableAt i ∅ H q) (hH : ∀ a, (H a).Nonempty) (hi : i.Ended)
    (ht : i.Next t) (hpq : ∀ i, i.Ended → i.Next t → p i = q i) : ViableAt i ∅ H p := by
  have hfirst {u : Token} {us vs : List Token} {j : Input} {G : Token → Prop}
      (hcut : i.Cut (us.map .ok) j) (hne : us ≠ []) (hu : Ahead G (us ++ vs) u) : u = t := by
    cases us with
    | nil => exact absurd rfl hne
    | cons v us => exact hu.trans (hcut.next.unique ht)
  refine ⟨fun hok => ?_, fun herror => ?_⟩
  · obtain ⟨us, hcut, haccepts, hnil⟩ := h.ok ((hpq i hi ht).symm.trans hok)
    have hne : us ≠ [] := fun hus => (hH _).not_subset_empty (hnil hus)
    refine ⟨us, hcut, fun v hv => (haccepts v hv).congr fun l u hl hu hahead => ?_, hnil⟩
    rw [← List.append_nil us] at hahead
    exact hpq l hl (hfirst hcut hne hahead ▸ hu)
  · obtain ⟨us, k, v, hcut, hv, hspan, hrejects, hmore⟩ :=
      h.error ((hpq i hi ht).symm.trans herror)
    refine ⟨us, k, v, hcut, hv, hspan, hrejects.congr fun l u hl hu hahead => ?_, fun hne => ?_⟩
    · refine hpq l hl ?_
      cases us with
      | nil =>
        rw [hcut.of_nil] at hv
        have hut : u = t := hahead.trans (hv.unique ht)
        exact hut ▸ hu
      | cons w us =>
        have hut : u = t := hahead.trans (hcut.next.unique ht)
        exact hut ▸ hu
    · obtain ⟨vs, a, hvs, haccepts⟩ := hmore hne
      exact ⟨vs, a, hvs, haccepts.congr fun l u hl hu hahead =>
        hpq l hl (hfirst hcut hne hahead ▸ hu)⟩

theorem pure (h : H a ⊆ J) : ViableAt i J H (pure a) := by
  refine ⟨?_, nofun⟩
  rintro _ _ ⟨⟩
  exact ⟨[], .refl i, fun _ _ => .pure, fun _ => h⟩

theorem bind {f : α → Parser β} (hp : ViableAt i J H p) (ho : ∀ a, Opens (H a) Q (f a))
    (hf : ∀ a us j, p i = .ok a j → i.Cut (us.map .ok) j → (us = [] → H a ⊆ J) →
      ViableAt j (H a) Q (f a)) : ViableAt i J Q (p >>= f) := by
  refine ⟨fun {b k} hok => ?_, fun {e k} herror => ?_⟩
  · obtain ⟨a, j, hpa, hfa⟩ := of_bind_eq_ok hok
    obtain ⟨us, hus, haccepts, hnil⟩ := hp.ok hpa
    obtain ⟨vs, hvs, haccepts', hnil'⟩ := (hf a us j hpa hus hnil).ok hfa
    refine ⟨us ++ vs, hus.append hvs, fun t ht => ?_, fun hboth => ?_⟩
    · obtain ⟨u, hu, hahead⟩ := hvs.ahead (G := (· = t)) ht rfl
      refine (haccepts u hu).bind (haccepts' t ht) fun w hw => ?_
      cases vs with
      | nil =>
        rcases hw with hw | rfl
        · exact .inl (hnil' rfl hw)
        · exact .inr hahead.symm
      | cons v vs => exact .inr (hw.trans hahead.symm)
    · obtain ⟨rfl, rfl⟩ := List.append_eq_nil_iff.mp hboth
      exact (hnil' rfl).trans (hnil rfl)
  · cases hpi : p i with
    | error e' k' =>
      rw [bind_of_error hpi] at herror
      cases herror
      obtain ⟨us, k, t, hcut, ht, hspan, hrejects, hmore⟩ := hp.error hpi
      refine ⟨us, k, t, hcut, ht, hspan, hrejects.left, fun hus => ?_⟩
      obtain ⟨vs, a, hvs, haccepts⟩ := hmore hus
      obtain ⟨ws, b, hws, haccepts', hfirst⟩ := ho a
      refine ⟨vs ++ ws, b, ?_, ?_⟩
      · intro v hv
        exact (List.mem_append.mp hv).elim (hvs v) (hws v)
      · rw [← List.append_assoc]
        exact haccepts.bind haccepts' hfirst
    | ok a j =>
      rw [bind_of_ok hpi] at herror
      obtain ⟨us, hus, haccepts, hnil⟩ := hp.ok hpi
      obtain ⟨vs, k, t, hvs, ht, hspan, hrejects, hmore⟩ :=
        (hf a us j hpi hus hnil).error herror
      obtain ⟨u, hu, hahead⟩ := hvs.ahead (G := (· = t)) ht rfl
      refine ⟨us ++ vs, k, t, hus.append hvs, ht, hspan, ?_, fun hboth => ?_⟩
      · refine .bind (haccepts u hu) hrejects fun w hw => .inr ?_
        cases vs with
        | nil => exact hw.trans hahead.symm
        | cons => exact hw.trans hahead.symm
      · cases vs with
        | nil =>
          obtain ⟨ws, b, hws, haccepts', hfirst⟩ := ho a
          refine ⟨ws, b, hws, ?_⟩
          rw [List.append_nil]
          exact (haccepts u hu).bind haccepts' fun w hw => .inl (hfirst w hw)
        | cons v vs =>
          obtain ⟨ws, b, hws, haccepts'⟩ := hmore (List.cons_ne_nil _ _)
          refine ⟨ws, b, hws, ?_⟩
          rw [List.append_assoc]
          exact (haccepts u hu).bind haccepts' fun w hw => .inr (hw.trans hahead.symm)

/-- A token at which the reader fails. -/
theorem fails {f : Token → Parser β} (hi : i.Ended) (ht : i.Next t)
    (hfail : f t = fail fault t.span) : ViableAt i J Q (next >>= f) := by
  obtain ⟨j, hj⟩ := rejects_next hfail i i hi (.refl i) ht
  refine ⟨fun hok => ?_, fun herror => ?_⟩
  · rw [hj] at hok
    cases hok
  · rw [hj] at herror
    cases herror
    exact ⟨[], i, t, .refl i, ht, rfl, rejects_next hfail, fun hnil => absurd rfl hnil⟩

/-- A token that is consumed. -/
theorem token {f : Token → Parser β} (hi : i.Clean) (ht : i.Next t) (hne : t.kind ≠ .eof)
    (hn : i.rest.length < n) (hf : Guides (n - 1) Set.univ Set.univ Q (f t)) :
    ViableAt i J Q (next >>= f) := by
  obtain ⟨-, rfl⟩ | ⟨j, hcut⟩ := ht.nil_or_cut
  · exact absurd hi.ended hne
  · have hnext : Parser.next i = .ok t j := by
      obtain ⟨rest, finish⟩ := i
      obtain ⟨rest', finish'⟩ := j
      obtain ⟨hrest, hfinish⟩ := hcut
      cases hrest
      cases hfinish
      rfl
    have hlength := hcut.length
    rw [List.length_singleton] at hlength
    have hj := hf.viable j (hcut.clean hi) (by omega)
    refine ⟨fun hok => ?_, fun herror => ?_⟩
    · rw [bind_of_ok hnext] at hok
      obtain ⟨us, hus, haccepts, -⟩ := hj.ok hok
      exact ⟨t :: us, hcut.append hus, fun u hu => (haccepts u hu).next, nofun⟩
    · rw [bind_of_ok hnext] at herror
      obtain ⟨us, k, u, hus, hu, hspan, hrejects, hmore⟩ := hj.error herror
      refine ⟨t :: us, k, u, hcut.append hus, hu, hspan, hrejects.next, fun _ => ?_⟩
      cases us with
      | nil =>
        obtain ⟨vs, b, hvs, haccepts, -⟩ := hf.opens
        exact ⟨vs, b, hvs, haccepts.next⟩
      | cons v us =>
        obtain ⟨vs, b, hvs, haccepts⟩ := hmore (List.cons_ne_nil _ _)
        exact ⟨vs, b, hvs, haccepts.next⟩

/-- A token that is looked at. If nothing is consumed, what may follow has to lead the same way. -/
theorem peek {f : Token → Parser β} (ht : i.Next t)
    (h : ViableAt i {c | c ∈ J ∧ ∀ u : Token, u.kind = c → f u = f t} Q (f t)) :
    ViableAt i J Q (peek >>= f) := by
  have hpeek : (Parser.peek >>= f) i = f t i := bind_of_ok (peek_of_next ht)
  -- the reader sees `t` first, or something that leads the same way
  have hsame {us : List Token} {G : Token → Prop} (j : Input) (hus : i.Cut (us.map .ok) j)
      (hG : us = [] → ∀ u, G u → f u = f t) (l : Input) (u : Token) (_ : l.Ended)
      (hu : l.Next u) (hahead : Ahead G us u) : (Parser.peek >>= f) l = f t l := by
    rw [bind_of_ok (peek_of_next hu)]
    cases us with
    | nil => rw [hG rfl u hahead]
    | cons v us =>
      cases hahead
      rw [hus.next.unique ht]
  refine ⟨fun hok => ?_, fun herror => ?_⟩
  · obtain ⟨us, hus, haccepts, hnil⟩ := h.ok (hpeek.symm.trans hok)
    refine ⟨us, hus, fun u hu => ?_, fun hnone => (hnil hnone).trans fun c hc => hc.1⟩
    refine (haccepts u hu).congr (hsame _ hus fun hnone w hw => ?_)
    rcases hw with hw | rfl
    · exact (hnil hnone hw).2 w rfl
    · subst hnone
      rw [hus.of_nil] at hu
      rw [hu.unique ht]
  · obtain ⟨us, k, u, hus, hu, hspan, hrejects, hmore⟩ := h.error (hpeek.symm.trans herror)
    refine ⟨us, k, u, hus, hu, hspan, ?_, fun hnone => ?_⟩
    · refine hrejects.congr (hsame _ hus fun hnone w hw => ?_)
      subst hnone
      rw [hus.of_nil] at hu
      rw [hw, hu.unique ht]
    · obtain ⟨vs, b, hvs, haccepts⟩ := hmore hnone
      refine ⟨vs, b, hvs, haccepts.congr fun l w _ hw hahead => ?_⟩
      cases us with
      | nil => exact absurd rfl hnone
      | cons v us =>
        cases hahead
        rw [bind_of_ok (peek_of_next hw), hus.next.unique ht]

end ViableAt

namespace Viable

variable {f : α → Parser β}

theorem mono (h : Viable n J H p) (hJ : J ⊆ J') (hH : ∀ a, H' a ⊆ H a) : Viable n J' H' p :=
  fun i hi hn => (h i hi hn).mono hJ hH

theorem less {m : Nat} (h : Viable n J H p) (hm : m ≤ n) : Viable m J H p :=
  fun i hi hn => h i hi (Nat.lt_of_lt_of_le hn hm)

theorem congr (h : Viable n J H q) (hpq : ∀ i, i.Ended → p i = q i) : Viable n J H p :=
  fun i hi hn => (h i hi hn).congr hi.ended hpq

theorem pure (h : H a ⊆ J) : Viable n J H (pure a) := fun _ _ _ => .pure h

theorem bind (hp : Viable n J H p) (hf : ∀ a, Guides n (H a) (H a) Q (f a)) :
    Viable n J Q (p >>= f) := by
  refine fun i hi hn => (hp i hi hn).bind (fun a => (hf a).opens) fun a us j _ hcut _ => ?_
  have hlength := hcut.length
  exact (hf a).viable j (hcut.clean hi) (by omega)

theorem step (hp : Viable n ∅ H p) (hH : ∀ a, (H a).Nonempty)
    (hf : ∀ a, Guides (n - 1) (H a) (H a) Q (f a)) : Viable n J Q (p >>= f) := by
  refine fun i hi hn => ((hp i hi hn).mono (Set.empty_subset J) fun _ => subset_rfl).bind
    (fun a => (hf a).opens) fun a us j hpa hcut _ => ?_
  obtain ⟨vs, hvs, -, hnil⟩ := (hp i hi hn).ok hpa
  have hpos : vs ≠ [] := fun h => (hH a).not_subset_empty (hnil h)
  have hlength := hvs.length
  have hvs := List.length_pos_iff.mpr hpos
  exact (hf a).viable j (hcut.clean hi) (by omega)

theorem next {f : Token → Parser β} (h : ∀ t : Token, (∃ fault, f t = fail fault t.span) ∨
    t.kind ≠ .eof ∧ Guides (n - 1) Set.univ Set.univ Q (f t)) : Viable n J Q (next >>= f) := by
  intro i hi hn
  obtain ⟨t, ht⟩ := hi.exists_next
  rcases h t with ⟨fault, hfail⟩ | ⟨hne, hf⟩
  · exact .fails hi.ended ht hfail
  · exact .token hi ht hne hn hf

theorem peek {f : Token → Parser β}
    (h : ∀ t, Viable n {c | c ∈ J ∧ ∀ u : Token, u.kind = c → f u = f t} Q (f t)) :
    Viable n J Q (peek >>= f) := by
  intro i hi hn
  obtain ⟨t, ht⟩ := hi.exists_next
  exact .peek ht (h t i hi hn)

theorem eat? {k : Kind} {f : Option Token → Parser β} (hk : k ≠ .eof)
    (hsome : ∀ t, Guides n Set.univ Set.univ Q (f (some t)))
    (hnone : Viable n (J \ {k}) Q (f none)) : Viable n J Q (eat? k >>= f) := by
  simp only [Parser.eat?, bind_assoc]
  intro i hi hn
  obtain ⟨t, ht⟩ := hi.exists_next
  refine .peek ht ?_
  by_cases hkind : t.kind = k
  · rw [if_pos hkind]
    simp only [bind_assoc, pure_bind]
    exact .token hi ht (fun heof => hk (hkind.symm.trans heof)) hn
      ⟨(hsome t).viable.less (Nat.sub_le n 1), (hsome t).opens⟩
  · rw [if_neg hkind, pure_bind]
    refine (hnone i hi hn).mono (fun c hc => ⟨hc.1, fun u hu => ?_⟩) fun _ => subset_rfl
    have hne : u.kind ≠ k := fun h => hc.2 (hu.symm.trans h)
    rw [if_neg hne, pure_bind]

theorem skip {s : Symbol} {f : Bool → Parser β} (htrue : Guides n Set.univ Set.univ Q (f true))
    (hfalse : Viable n (J \ {.symbol s}) Q (f false)) : Viable n J Q (skip s >>= f) := by
  simp only [Parser.skip, bind_assoc, pure_bind]
  exact .eat? (Token.Kind.symbol_ne_eof s) (fun _ => htrue) hfalse

theorem check {k : Kind} {f : Bool → Parser β}
    (htrue : ∀ i t, i.Clean → i.rest.length < n → i.Next t → t.kind = k →
      ViableAt i (J ∩ {k}) Q (f true))
    (hfalse : Viable n (J \ {k}) Q (f false)) : Viable n J Q (check k >>= f) := by
  simp only [Parser.check, bind_assoc, pure_bind]
  intro i hi hn
  obtain ⟨t, ht⟩ := hi.exists_next
  refine .peek ht ?_
  by_cases hkind : t.kind = k
  · rw [decide_eq_true hkind]
    refine (htrue i t hi hn ht hkind).mono (fun c hc => ⟨hc.1, fun u hu => ?_⟩)
      fun _ => subset_rfl
    rw [decide_eq_true (hu.trans hc.2)]
  · rw [decide_eq_false hkind]
    refine (hfalse i hi hn).mono (fun c hc => ⟨hc.1, fun u hu => ?_⟩) fun _ => subset_rfl
    rw [decide_eq_false fun h => hc.2 (hu.symm.trans h)]

end Viable

namespace Opens

theorem eat?_some {k : Kind} {f : Option Token → Parser β} (hw : k.Writable) (hk : k ∈ K)
    (h : ∀ t, Opens Set.univ Q (f (some t))) : Opens K Q (eat? k >>= f) := by
  simp only [Parser.eat?, bind_assoc]
  refine .peek (C := {k}) (.next hw ⟨hk, rfl⟩ fun t _ => h t) fun t ht => ?_
  have hkind : t.kind = k := ht
  rw [if_pos hkind]
  simp only [bind_assoc, pure_bind]

theorem eat?_none {k : Kind} {f : Option Token → Parser β} (h : Opens (K \ {k}) Q (f none)) :
    Opens K Q (eat? k >>= f) := by
  simp only [Parser.eat?, bind_assoc]
  refine .peek (C := {k}ᶜ) h fun t ht => ?_
  have hne : t.kind ≠ k := ht
  rw [if_neg hne, pure_bind]

theorem skip_true {s : Symbol} {f : Bool → Parser β} (hs : .symbol s ∈ K)
    (h : Opens Set.univ Q (f true)) : Opens K Q (skip s >>= f) := by
  simp only [Parser.skip, bind_assoc, pure_bind]
  exact .eat?_some (Token.Kind.writable_symbol s) hs fun _ => h

theorem skip_false {s : Symbol} {f : Bool → Parser β} (h : Opens (K \ {.symbol s}) Q (f false)) :
    Opens K Q (skip s >>= f) := by
  simp only [Parser.skip, bind_assoc, pure_bind]
  exact .eat?_none h

theorem check_true {k : Kind} {f : Bool → Parser β} (h : Opens (K ∩ {k}) Q (f true)) :
    Opens K Q (check k >>= f) := by
  simp only [Parser.check, bind_assoc, pure_bind]
  refine .peek (C := {k}) h fun t ht => ?_
  have hkind : t.kind = k := ht
  rw [decide_eq_true hkind]

theorem check_false {k : Kind} {f : Bool → Parser β} (h : Opens (K \ {k}) Q (f false)) :
    Opens K Q (check k >>= f) := by
  simp only [Parser.check, bind_assoc, pure_bind]
  refine .peek (C := {k}ᶜ) h fun t ht => ?_
  have hne : t.kind ≠ k := ht
  rw [decide_eq_false hne]

theorem expect {k : Kind} (hw : k.Writable) (hk : k ∈ K) :
    Opens K (fun _ => Set.univ) (expect k) := by
  refine .next hw hk fun t ht => ?_
  rw [if_pos ht]
  exact .pure (Set.subset_univ _)

end Opens

namespace Guides

variable {f : α → Parser β}

theorem mono (h : Guides n J K H p) (hJ : J ⊆ J') (hK : K ⊆ K') (hH : ∀ a, H' a ⊆ H a) :
    Guides n J' K' H' p :=
  ⟨h.viable.mono hJ hH, h.opens.mono hK hH⟩

theorem less {m : Nat} (h : Guides n J K H p) (hm : m ≤ n) : Guides m J K H p :=
  ⟨h.viable.less hm, h.opens⟩

theorem pure (h : H a ⊆ K) : Guides n K K H (pure a) := ⟨.pure h, .pure h⟩

theorem bind (hp : Guides n J K H p) (hf : ∀ a, Guides n (H a) (H a) Q (f a)) :
    Guides n J K Q (p >>= f) :=
  ⟨hp.viable.bind hf, hp.opens.bind fun a => (hf a).opens⟩

/-- Where the next token is in `C`, the reader goes on as `q` does, and else it consumes
something. -/
theorem peek {C : Set Kind} {f : Token → Parser β} {q : Parser β} (h : ∀ t, t.kind ∈ C → f t = q)
    (hq : Guides n (J ∩ C) (K ∩ C) Q q) (hf : ∀ t, t.kind ∉ C → Viable n ∅ Q (f t)) :
    Guides n J K Q (peek >>= f) := by
  refine ⟨.peek fun t => ?_, .peek hq.opens h⟩
  by_cases ht : t.kind ∈ C
  · rw [h t ht]
    exact hq.viable.mono (fun c hc => ⟨hc.1, fun u hu => h u (hu ▸ hc.2)⟩) fun _ => subset_rfl
  · exact (hf t ht).mono (Set.empty_subset _) fun _ => subset_rfl

theorem eat?_some {k : Kind} {f : Option Token → Parser β} (hne : k ≠ .eof) (hw : k.Writable)
    (hk : k ∈ K) (hsome : ∀ t, Guides n Set.univ Set.univ Q (f (some t)))
    (hnone : Viable n (J \ {k}) Q (f none)) : Guides n J K Q (eat? k >>= f) :=
  ⟨.eat? hne hsome hnone, .eat?_some hw hk fun t => (hsome t).opens⟩

theorem eat?_none {k : Kind} {f : Option Token → Parser β} (hne : k ≠ .eof)
    (hsome : ∀ t, Guides n Set.univ Set.univ Q (f (some t)))
    (hnone : Guides n (J \ {k}) (K \ {k}) Q (f none)) : Guides n J K Q (eat? k >>= f) :=
  ⟨.eat? hne hsome hnone.viable, .eat?_none hnone.opens⟩

theorem skip_true {s : Symbol} {f : Bool → Parser β} (hs : .symbol s ∈ K)
    (htrue : Guides n Set.univ Set.univ Q (f true))
    (hfalse : Viable n (J \ {.symbol s}) Q (f false)) : Guides n J K Q (skip s >>= f) :=
  ⟨.skip htrue hfalse, .skip_true hs htrue.opens⟩

theorem skip_false {s : Symbol} {f : Bool → Parser β}
    (htrue : Guides n Set.univ Set.univ Q (f true))
    (hfalse : Guides n (J \ {.symbol s}) (K \ {.symbol s}) Q (f false)) :
    Guides n J K Q (skip s >>= f) :=
  ⟨.skip htrue hfalse.viable, .skip_false hfalse.opens⟩

/-- After a reader that consumes something, there is one token less. -/
theorem step (hp : Guides n ∅ K H p) (hH : ∀ a, (H a).Nonempty)
    (hf : ∀ a, Guides (n - 1) (H a) (H a) Q (f a)) : Guides n J K Q (p >>= f) :=
  ⟨hp.viable.step hH hf, hp.opens.bind fun a => (hf a).opens⟩

end Guides

theorem guides_expect {k : Kind} (hne : k ≠ .eof) (hw : k.Writable) (hk : k ∈ K) :
    Guides n J K (fun _ => Set.univ) (expect k) := by
  refine ⟨.next fun t => ?_, .expect hw hk⟩
  by_cases hkind : t.kind = k
  · rw [if_pos hkind]
    exact .inr ⟨fun heof => hne (hkind.symm.trans heof), .pure (Set.subset_univ _)⟩
  · rw [if_neg hkind]
    exact .inl ⟨_, rfl⟩

theorem guides_symbol {s : Symbol} (hs : .symbol s ∈ K) :
    Guides n J K (fun _ => Set.univ) (symbol s) :=
  guides_expect (Token.Kind.symbol_ne_eof s) (Token.Kind.writable_symbol s) hs

theorem guides_keyword {k : Keyword} (hk : .keyword k ∈ K) :
    Guides n J K (fun _ => Set.univ) (keyword k) :=
  guides_expect nofun (Token.Kind.writable_keyword k) hk

/-! ### Loops -/

section

variable {σ : Type}

variable {run : Nat → σ → Parser β} {pass : σ → Parser (Pass σ β)} {base G : Set Kind}

/-- Each pass is viable, so a loop of them is. -/
theorem Loops.viable (hl : Loops run pass) (hG : base ⊆ G)
    (ho : ∀ s, Opens G Q (do run (← remaining) s))
    (hpass : ∀ s J, base ⊆ J → Viable n J (Pass.follow G Q) (pass s)) (s : σ) {J : Set Kind}
    (hJ : base ⊆ J) : Viable n J Q (do run (← remaining) s) := by
  intro i hi hn
  induction hlength : i.rest.length using Nat.strongRecOn generalizing i s J with
  | ind length ih =>
    refine .congr ?_ hi.ended fun i hi => hl.unroll hi (Nat.le_refl _)
    refine (hpass s J hJ i hi hn).bind (fun r => ?_) fun r us j hr hcut _ => ?_
    · cases r with
      | goOn s' => exact ho s'
      | done b => exact .pure subset_rfl
    · cases r with
      | goOn s' =>
        have hlt := (hl.goOn hi.ended hr).2
        exact ih j.rest.length (by omega) s' hG j (hcut.clean hi) (by omega) rfl
      | done b => exact .pure subset_rfl

theorem Loops.opens (hl : Loops run pass) {s : σ}
    (h : Opens K Q (pass s >>= proceed fun s => do run (← remaining) s)) :
    Opens K Q (do run (← remaining) s) :=
  h.congr fun _ _ hi _ _ => hl.unroll hi (Nat.le_refl _)

end

end Parser
end Syntax
end Rill
