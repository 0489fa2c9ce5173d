import Rill.Proofs.Syntax.Extents.Programs
import Rill.Proofs.Syntax.Likeness.Rules
import Rill.Proofs.Syntax.RoundTrip
import Rill.Proofs.Syntax.Viability.Statements

/-! A program that cannot be read is reported at the first token that no program has after the tokens
before it. -/
namespace Rill

open Text (Span)

/-- The source begins with the tokens `before` and then `t`, which may be its end. -/
def Token.Starts (source : String) (before : List Token) (t : Token) : Prop :=
  ∃ rest, Token.pieces source ++ [.ok (Token.endOf source)] = before.map .ok ++ .ok t :: rest

namespace Syntax

open Token (Word)
open Rill.Syntax.Parser

variable {source source' : String} {us us' vs : List Token} {t t' u : Token} {fault : Fault}

theorem starts_iff : Token.Starts source us t ↔
    ∃ k, (Input.ofSource source).Cut (us.map .ok) k ∧ k.Next t := by
  constructor
  · rintro ⟨rest, hrest⟩
    rcases List.eq_nil_or_concat' rest with rfl | ⟨rest, last, rfl⟩
    · obtain ⟨hpieces, hend⟩ := List.append_inj' hrest rfl
      cases hend
      exact ⟨⟨[], Token.endOf source⟩, ⟨hpieces.trans (List.append_nil _).symm, rfl⟩,
        .inl ⟨rfl, rfl⟩⟩
    · rw [← List.cons_append, ← List.append_assoc] at hrest
      have hpieces := (List.append_inj' hrest rfl).1
      exact ⟨⟨.ok t :: rest, Token.endOf source⟩, ⟨hpieces, rfl⟩, .inr ⟨rest, rfl⟩⟩
  · rintro ⟨k, ⟨hpieces, hfinish⟩, ht⟩
    have hsource : Token.pieces source = us.map .ok ++ k.rest := hpieces
    rcases ht with ⟨hnil, rfl⟩ | ⟨rest, hrest⟩
    · refine ⟨[], ?_⟩
      rw [hsource, hnil, List.append_nil, hfinish]
      rfl
    · refine ⟨rest ++ [.ok (Token.endOf source)], ?_⟩
      rw [hsource, hrest, List.append_assoc, List.cons_append]

/-- No token of a source is where one before it is. -/
theorem span_ne_of_starts (h : Token.Starts source us t) (hu : u ∈ us) : u.span ≠ t.span := by
  obtain ⟨k, ⟨hpieces, hfinish⟩, ht⟩ := starts_iff.mp h
  have hsource : Token.pieces source = us.map .ok ++ k.rest := hpieces
  rcases ht with ⟨-, rfl⟩ | ⟨rest, hrest⟩
  · have hpos := ((inOrder_of_pieces ⟨[], k.rest, hsource.symm⟩).2 u hu).1
    rw [hfinish]
    intro heq
    rw [heq] at hpos
    exact absurd hpos (Nat.lt_irrefl 0)
  · have hwithin : (us ++ [t]).map .ok <:+: Token.pieces source :=
      ⟨[], rest, by simp [hsource, hrest]⟩
    obtain ⟨horder, hvalid⟩ := inOrder_of_pieces hwithin
    have hpos := (hvalid t (List.mem_append_right _ List.mem_cons_self)).1
    have hle : u.span.stop ≤ t.span.start := horder.across hu List.mem_cons_self
    intro heq
    rw [heq] at hle
    exact absurd hle (Nat.not_le_of_lt (Nat.lt_add_of_pos_right hpos))

/-! ### Sources that start alike -/

/-- Nothing but the tokens `us` and then `t`. -/
def Input.upTo (us : List Token) (t : Token) : Input :=
  if t.kind = .eof then ⟨us.map .ok, t⟩
  else ⟨(us ++ [t]).map .ok, ⟨.eof, "", ⟨t.span.start + 1, 0⟩⟩⟩

namespace Input

theorem upTo_clean (us : List Token) (t : Token) : (upTo us t).Clean := by
  unfold upTo
  split
  next h => exact ⟨h, us, rfl⟩
  next => exact ⟨rfl, us ++ [t], rfl⟩

theorem cut_upTo (us : List Token) (t : Token) :
    ∃ k, (upTo us t).Cut (us.map .ok) k ∧ k.Next t := by
  unfold upTo
  split
  next => exact ⟨⟨[], t⟩, ⟨(List.append_nil _).symm, rfl⟩, .inl ⟨rfl, rfl⟩⟩
  next => exact ⟨⟨[.ok t], _⟩, ⟨List.map_append, rfl⟩, .inr ⟨[], rfl⟩⟩

/-- Where the last token is, there is no other. -/
theorem Cut.of_upTo {k : Input} (hcut : (upTo us t).Cut (vs.map .ok) k) (hu : k.Next u)
    (hspan : u.span = t.span) (hus : ∀ v ∈ us, v.span ≠ t.span) : vs = us ∧ u = t := by
  have hinj {ps qs : List Token} (h : ps.map (Except.ok (ε := Token.Error)) = qs.map .ok) :
      ps = qs := List.map_injective_iff.mpr (fun _ _ => Except.ok.inj) h
  have hmem {rest : List Token.Piece} (h : us.map .ok = vs.map .ok ++ .ok u :: rest) : False := by
    have hpiece : .ok u ∈ us.map (Except.ok (ε := Token.Error)) := by
      rw [h]
      exact List.mem_append_right _ List.mem_cons_self
    obtain ⟨v, hv, heq⟩ := List.mem_map.mp hpiece
    cases heq
    exact hus u hv hspan
  unfold upTo at hcut
  split at hcut
  next =>
    obtain ⟨hrest, hfinish⟩ := hcut
    rcases hu with ⟨hnil, rfl⟩ | ⟨rest, hcons⟩
    · rw [hnil, List.append_nil] at hrest
      exact ⟨(hinj hrest).symm, hfinish⟩
    · rw [hcons] at hrest
      exact (hmem hrest).elim
  next =>
    obtain ⟨hrest, hfinish⟩ := hcut
    rcases hu with ⟨-, rfl⟩ | ⟨rest, hcons⟩
    · rw [hfinish] at hspan
      have hstart : t.span.start + 1 = t.span.start := congrArg Span.start hspan
      exact absurd hstart (Nat.succ_ne_self _)
    · rw [hcons, List.map_append] at hrest
      rcases List.eq_nil_or_concat' rest with rfl | ⟨rest, last, rfl⟩
      · obtain ⟨hvs, hlast⟩ := List.append_inj' hrest rfl
        cases hlast
        exact ⟨(hinj hvs).symm, rfl⟩
      · rw [← List.cons_append, ← List.append_assoc] at hrest
        exact (hmem (List.append_inj' hrest rfl).1).elim

end Input

/-- Tokens with the same words are like one another. -/
theorem like_of_words {P : Span → Span → Prop} (hwords : us'.map Token.word = us.map Token.word)
    (hP : ∀ u ∈ us, ∀ u' ∈ us', P u.span u'.span) :
    List.Forall₂ (Token.Piece.Like P) (us.map .ok) (us'.map .ok) := by
  induction us generalizing us' with
  | nil =>
    cases List.map_eq_nil_iff.mp hwords
    exact .nil
  | cons u us ih =>
    obtain ⟨u', us', rfl, hu, hus⟩ := List.map_eq_cons_iff.mp hwords
    obtain ⟨kind, text, span⟩ := u
    obtain ⟨kind', text', span'⟩ := u'
    cases hu
    refine .cons (.ok ⟨hP _ List.mem_cons_self _ List.mem_cons_self⟩) (ih hus fun v hv v' hv' => ?_)
    exact hP v (List.mem_cons_of_mem _ hv) v' (List.mem_cons_of_mem _ hv')

namespace Parser

/-- The same words at other places are rejected in the same way. -/
theorem Rejects.of_words (h : Rejects program us t fault)
    (hwords : us'.map Token.word = us.map Token.word) (hword : t'.word = t.word)
    (hus : ∀ u ∈ us, u.span ≠ t.span) (hus' : ∀ u ∈ us', u.span ≠ t'.span) :
    Rejects program us' t' fault := by
  have hkind : t'.kind = t.kind := congrArg Word.kind hword
  let P (s s' : Span) : Prop := s = t.span → s' = t'.span
  have hlast : Token.Like P t t' := by
    have htext : t'.text = t.text := congrArg Word.text hword
    obtain ⟨kind, text, span⟩ := t
    obtain ⟨kind', text', span'⟩ := t'
    cases hkind
    cases htext
    exact ⟨fun _ => rfl⟩
  have hbefore : List.Forall₂ (Token.Piece.Like P) (us.map .ok) (us'.map .ok) :=
    like_of_words hwords fun u hu u' _ heq => absurd heq (hus u hu)
  have hlike : Input.Like P (.upTo us t) (.upTo us' t') := by
    unfold Input.upTo
    rw [hkind]
    split
    next => exact ⟨hbefore, hlast⟩
    next =>
      refine ⟨?_, ⟨fun heq => ?_⟩⟩
      · rw [List.map_append, List.map_append]
        exact List.rel_append hbefore (.cons (.ok hlast) .nil)
      · have hstart : t.span.start + 1 = t.span.start := congrArg Span.start heq
        exact absurd hstart (Nat.succ_ne_self _)
  obtain ⟨k, hcut, hnext⟩ := Input.cut_upTo us t
  obtain ⟨l, hfails⟩ := h _ k (Input.upTo_clean us t).ended hcut hnext
  have hmatched := alike_program _ _ hlike
  rw [hfails] at hmatched
  cases hfails' : program (.upTo us' t') with
  | ok p l' =>
    rw [hfails'] at hmatched
    cases hmatched
  | error e l' =>
    rw [hfails'] at hmatched
    cases hmatched with
    | error herror _ =>
      -- what is reported there is reported at the last token
      have hclean := Input.upTo_clean us' t'
      obtain ⟨vs, k', u, hcut', hnext', hspan, hrejects, -⟩ :=
        (guides_program.viable _ hclean (Nat.lt_succ_self _)).error hfails'
      have hplace : u.span = t'.span := hspan.symm.trans (herror.2 rfl)
      have hfault : e.fault = fault := herror.1.symm
      obtain ⟨rfl, rfl⟩ := hcut'.of_upTo hnext' hplace hus'
      rw [hfault] at hrejects
      exact hrejects

/-- Tokens that are read as a program can be written out as one. -/
theorem Accepts.exists_source {p : Program} (h : Accepts program us (·.kind ∈ ({.eof} : Set _)) p)
    (hus : ∀ u ∈ us, u.word.Legible) : ∃ (source : String) (ts : List Token) (q : Program),
      Token.pieces source = ts.map .ok ∧ ts.map Token.word = us.map Token.word ∧
        parse source = .ok q := by
  have hlegible : ∀ w ∈ us.map Token.word, w.Legible := by
    simpa using hus
  obtain ⟨ts, hts, hwords, -⟩ := shows_spaced hlegible
  refine ⟨Word.spaced (us.map Token.word), ts, ?_⟩
  have hpieces : Token.pieces (Word.spaced (us.map Token.word)) = ts.map .ok := hts
  have hread : program ⟨us.map .ok, Token.endOf (Word.spaced (us.map Token.word))⟩ = .ok p _ :=
    h _ ⟨[], _⟩ rfl ⟨(List.append_nil _).symm, rfl⟩ _ (.inl ⟨rfl, rfl⟩) rfl
  have hlike : Input.Like (fun _ _ => True)
      ⟨us.map .ok, Token.endOf (Word.spaced (us.map Token.word))⟩
      (.ofSource (Word.spaced (us.map Token.word))) := by
    refine ⟨?_, ⟨trivial⟩⟩
    rw [Input.ofSource, hpieces]
    exact like_of_words hwords fun _ _ _ _ => trivial
  have hmatched := alike_program _ _ hlike
  rw [hread] at hmatched
  cases hq : program (.ofSource (Word.spaced (us.map Token.word))) with
  | ok q j => exact ⟨q, hpieces, hwords, by rw [parse, hq]⟩
  | error e j =>
    rw [hq] at hmatched
    cases hmatched

/-! ### The end of a program -/

section

variable {σ β : Type} {run : Nat → σ → Parser β} {pass : σ → Parser (Pass σ β)}

/-- A loop ends as its last pass does. -/
theorem Loops.done {S : β → Input → Prop} (hl : Loops run pass)
    (hpass : ∀ s b i j, i.Ended → pass s i = .ok (.done b) j → S b j) {s : σ} {b : β}
    {i j : Input} (hi : i.Ended) (h : run i.rest.length s i = .ok b j) : S b j := by
  induction hlength : i.rest.length using Nat.strongRecOn generalizing i s with
  | ind length ih =>
    rw [hl.unroll hi (Nat.le_refl _)] at h
    obtain ⟨r, k, hr, hrest⟩ := of_bind_eq_ok h
    cases r with
    | goOn s' =>
      obtain ⟨hk, hlt⟩ := hl.goOn hi hr
      exact ih k.rest.length (by omega) hk hrest rfl
    | done b' =>
      cases hrest
      exact hpass s b i j hi hr

end

theorem of_check_eq_true {k : Token.Kind} {i j : Input} (hi : i.Ended)
    (h : check k i = .ok true j) : ∃ t, j.Next t ∧ t.kind = k := by
  obtain ⟨t, l, hpeek, hfound⟩ := of_bind_eq_ok h
  obtain ⟨_, -, hnext, -, rfl⟩ := finds_peek hi t l hpeek
  injection hfound with hkind hl
  subst hl
  exact ⟨t, hnext, of_decide_eq_true hkind⟩

/-- Statements are read up to the end. -/
theorem statementPass_done {body b : List Stmt} {i j : Input} (hi : i.Ended)
    (h : statementPass body i = .ok (.done b) j) : ∃ t, j.Next t ∧ t.kind = .eof := by
  obtain ⟨n, _, hn, h⟩ := of_bind_eq_ok h
  cases hn
  obtain ⟨_, k, hskip, h⟩ := of_bind_eq_ok h
  obtain ⟨_, hpast, -⟩ := finds_skipSemicolons _ hi _ k hskip
  obtain ⟨found, l, hcheck, h⟩ := of_bind_eq_ok h
  cases found with
  | true =>
    cases h
    exact of_check_eq_true (hpast.ended hi) hcheck
  | false =>
    obtain ⟨s, _, -, hs⟩ := of_bind_eq_ok h
    cases hs

end Parser

/-- In a source that is read as a program, every piece is a token. -/
theorem tokens_of_parse {p : Program} (h : parse source = .ok p) :
    ∃ ts : List Token, Token.pieces source = ts.map .ok := by
  have hend : (Input.ofSource source).Ended := rfl
  unfold parse at h
  split at h
  next q j hrun =>
    obtain ⟨_, ⟨ts, hts, -, -⟩, -⟩ := finds_program hend q j hrun
    have hsource : Token.pieces source = ts.map .ok ++ j.rest := hts
    obtain ⟨room, _, hroom, hrun⟩ := of_bind_eq_ok hrun
    cases hroom
    obtain ⟨body, k, hbody, hq⟩ := of_bind_eq_ok hrun
    cases hq
    obtain ⟨t, ⟨hnil, -⟩ | ⟨rest, hcons⟩, hkind⟩ :=
      loops_statements.done (fun _ _ _ _ => statementPass_done) hend hbody
    · exact ⟨ts, by rw [hsource, hnil, List.append_nil]⟩
    · have hmem : .ok t ∈ Token.pieces source := by
        rw [hsource, hcons]
        exact List.mem_append_right _ List.mem_cons_self
      exact absurd hkind (Token.kind_ne_eof_of_mem hmem)
  next => cases h

/-- The error is that of the token `t` after the tokens `before`, and of no other. -/
structure FirstOffence (source : String) (e : Error) (before : List Token) (t : Token) : Prop where
  starts : Token.Starts source before t
  span : e.span = t.span
  /-- Every source that starts with the same words fails in the same way where `t` is in it. -/
  inevitable {source' : String} {before' : List Token} {t' : Token} :
    Token.Starts source' before' t' → before'.map Token.word = before.map Token.word →
    t'.word = t.word → parse source' = .error ⟨e.fault, t'.span⟩
  /-- Some program starts with the words of the tokens before `t`. -/
  completable : ∃ (source' : String) (ts : List Token) (p : Program),
    Token.pieces source' = ts.map .ok ∧ before.map Token.word <+: ts.map Token.word ∧
      parse source' = .ok p

/-- A source that is read as a program is made of tokens. One that is made of tokens but cannot be
read is reported at the first token that no program has after the tokens before it. -/
theorem parse_reports_first (source : String) :
    (∀ p, parse source = .ok p → ∃ ts : List Token, Token.pieces source = ts.map .ok) ∧
    ∀ (ts : List Token) (e : Error), Token.pieces source = ts.map .ok → parse source = .error e →
      ∃ before t, FirstOffence source e before t := by
  refine ⟨fun p => tokens_of_parse, fun ts e hts h => ?_⟩
  have hclean : (Input.ofSource source).Clean := ⟨rfl, ts, hts⟩
  unfold parse at h
  split at h
  next => cases h
  next _ j hrun =>
    cases h
    obtain ⟨before, k, t, hcut, hnext, hspan, hrejects, hmore⟩ :=
      (guides_program.viable _ hclean (Nat.lt_succ_self _)).error hrun
    have hstarts : Token.Starts source before t := starts_iff.mpr ⟨k, hcut, hnext⟩
    refine ⟨before, t, hstarts, hspan, fun {source' before' t'} hstarts' hwords hword => ?_, ?_⟩
    · have hrejects' : Rejects program before' t' e.fault :=
        hrejects.of_words hwords hword (fun _ => span_ne_of_starts hstarts)
          fun _ => span_ne_of_starts hstarts'
      have hend : (Input.ofSource source').Ended := rfl
      obtain ⟨k', hcut', hnext'⟩ := starts_iff.mp hstarts'
      obtain ⟨l, hl⟩ := hrejects' _ k' hend hcut' hnext'
      rw [parse, hl]
    · obtain ⟨vs, p, hvs, haccepts⟩ : ∃ vs p, (∀ v ∈ vs, v.word.Legible) ∧
          Accepts program (before ++ vs) (·.kind ∈ ({.eof} : Set _)) p := by
        cases before with
        | nil =>
          obtain ⟨vs, p, hvs, haccepts, -⟩ := (guides_program (n := 0)).opens
          exact ⟨vs, p, hvs, haccepts⟩
        | cons u us => exact hmore (List.cons_ne_nil _ _)
      have hbefore (u : Token) (hu : u ∈ before) : u.word.Legible := by
        have hsource : Token.pieces source = before.map .ok ++ k.rest := hcut.1
        have hmem : .ok u ∈ Token.pieces source := by
          rw [hsource]
          exact List.mem_append_left _ (List.mem_map_of_mem hu)
        exact Token.legible_of_mem_piecesFrom hmem
      obtain ⟨source', ts', q, hpieces, hwords, hq⟩ := haccepts.exists_source fun u hu =>
        (List.mem_append.mp hu).elim (hbefore u) (hvs u)
      refine ⟨source', ts', q, hpieces, ?_, hq⟩
      rw [hwords, List.map_append]
      exact List.prefix_append _ _

theorem parse_reports_first_assign :
    let one : Token := ⟨.int, "1", ⟨0, 1⟩⟩
    let equal : Token := ⟨.symbol .equal, "=", ⟨2, 1⟩⟩
    let two : Token := ⟨.int, "2", ⟨4, 1⟩⟩
    let e : Error := ⟨.invalidAssignmentTarget, ⟨2, 1⟩⟩
    Token.pieces "1 = 2" = [one, equal, two].map .ok ∧ parse "1 = 2" = .error e ∧
      (∃ before t, FirstOffence "1 = 2" e before t) ∧
      parse "1" = .ok [.expr (.atom (.int 1) ⟨0, 1⟩)] ∧
      ∃ ts : List Token, Token.pieces "1" = ts.map .ok := by
  intro one equal two e
  have htokens : Token.pieces "1 = 2" = [one, equal, two].map .ok := by with_unfolding_all rfl
  have hfails : parse "1 = 2" = .error e := by with_unfolding_all rfl
  have hreads : parse "1" = .ok [.expr (.atom (.int 1) ⟨0, 1⟩)] := by with_unfolding_all rfl
  exact ⟨htokens, hfails, (parse_reports_first "1 = 2").2 _ e htokens hfails, hreads,
    (parse_reports_first "1").1 _ hreads⟩

end Syntax
end Rill
